/-
Reading bytes as UTF-8 without ever failing.

Where the bytes are no UTF-8, each longest run that could still have begun a
character is read as one replacement character, and so is each byte that can
begin none. Surrogates and points above U+10FFFF have no encoding.
-/

namespace CobolAnalysis.Text.Utf8

def replacement : Char := Char.ofNat 0xFFFD

def isContinuation (byte : UInt8) : Bool := 0x80 ≤ byte && byte ≤ 0xBF

/-- A lead byte and its first continuation that begin the shortest encoding of some character. -/
def begins (lead second : UInt8) : Bool :=
  if lead < 0xC2 then false
  else if lead ≤ 0xDF then isContinuation second
  else if lead == 0xE0 then 0xA0 ≤ second && second ≤ 0xBF
  else if lead == 0xED then 0x80 ≤ second && second ≤ 0x9F
  else if lead ≤ 0xEF then isContinuation second
  else if lead == 0xF0 then 0x90 ≤ second && second ≤ 0xBF
  else if lead ≤ 0xF3 then isContinuation second
  else if lead == 0xF4 then 0x80 ≤ second && second ≤ 0x8F
  else false

/-- The character whose leading bits and six-bit groups are given. -/
def assemble (leading : Nat) (groups : List UInt8) : Char :=
  Char.ofNat (groups.foldl (fun bits byte => bits * 64 + byte.toNat % 64) leading)

def decode : List UInt8 → List Char
  | [] => []
  | lead :: rest =>
      if lead < 0x80 then Char.ofNat lead.toNat :: decode rest
      else
        match rest with
        | [] => [replacement]
        | second :: afterSecond =>
            if begins lead second then
              if lead ≤ 0xDF then
                assemble (lead.toNat % 32) [second] :: decode afterSecond
              else
                match afterSecond with
                | [] => [replacement]
                | third :: afterThird =>
                    if isContinuation third then
                      if lead ≤ 0xEF then
                        assemble (lead.toNat % 16) [second, third] :: decode afterThird
                      else
                        match afterThird with
                        | [] => [replacement]
                        | fourth :: afterFourth =>
                            if isContinuation fourth then
                              assemble (lead.toNat % 8) [second, third, fourth] ::
                                decode afterFourth
                            else replacement :: decode (fourth :: afterFourth)
                    else replacement :: decode (third :: afterThird)
            else replacement :: decode (second :: afterSecond)
termination_by bytes => bytes.length

end CobolAnalysis.Text.Utf8
