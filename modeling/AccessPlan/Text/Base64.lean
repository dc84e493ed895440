/-!
# Base 64

`Base64.decode?` reads bytes from characters of base sixty-four. Characters outside the alphabet are
skipped; padding that completes a group of four ends the text.
-/

set_option autoImplicit false

namespace AccessPlan.Text.Base64

/-- The value of a character of the alphabet. -/
def digit? (c : Char) : Option Nat :=
  if 'A' ≤ c && c ≤ 'Z' then some (c.toNat - 'A'.toNat)
  else if 'a' ≤ c && c ≤ 'z' then some (c.toNat - 'a'.toNat + 26)
  else if '0' ≤ c && c ≤ '9' then some (c.toNat - '0'.toNat + 52)
  else if c == '+' then some 62
  else if c == '/' then some 63
  else none

/-- The bytes of the characters, after `place` characters of a group that left the bits `left`; `pads`
padding characters come directly before. There are none if the last group is not complete. -/
def decodeFrom (place left pads : Nat) : List Char → Option (List UInt8)
  | [] => if place == 0 then some [] else none
  | c :: cs =>
    if c == '=' then
      if 2 ≤ place && 4 ≤ place + pads + 1 then some []
      else decodeFrom place left (if 2 ≤ place then pads + 1 else pads) cs
    else match digit? c with
      | none => decodeFrom place left pads cs
      | some d => match place with
        | 0 => decodeFrom 1 d 0 cs
        | 1 => (decodeFrom 2 (d % 16) 0 cs).map (UInt8.ofNat (left * 4 + d / 16) :: ·)
        | 2 => (decodeFrom 3 (d % 4) 0 cs).map (UInt8.ofNat (left * 16 + d / 4) :: ·)
        | _ => (decodeFrom 0 0 0 cs).map (UInt8.ofNat (left * 64 + d) :: ·)

/-- The bytes of a text, which has to be ASCII. -/
def decode? (cs : List Char) : Option (List UInt8) :=
  if cs.all fun c => c.toNat < 128 then decodeFrom 0 0 0 cs else none

end AccessPlan.Text.Base64
