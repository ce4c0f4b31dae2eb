/-! The bytes of a text, and bytes read as text, also where they are none. -/

namespace ServiceMap.Text

def utf8 (s : String) : List UInt8 := s.toUTF8.data.toList

def ofUtf8? (bs : List UInt8) : Option String := String.fromUTF8? ⟨bs.toArray⟩

/-- What a first byte of several asks of those after it: the bounds of the next one, and how many
more there are. -/
def continuation? (b : UInt8) : Option (UInt8 × UInt8 × Nat) :=
  if 0xC2 ≤ b ∧ b ≤ 0xDF then some (0x80, 0xBF, 0)
  else if b = 0xE0 then some (0xA0, 0xBF, 1)
  else if b = 0xED then some (0x80, 0x9F, 1)
  else if 0xE1 ≤ b ∧ b ≤ 0xEF then some (0x80, 0xBF, 1)
  else if b = 0xF0 then some (0x90, 0xBF, 2)
  else if 0xF1 ≤ b ∧ b ≤ 0xF3 then some (0x80, 0xBF, 2)
  else if b = 0xF4 then some (0x80, 0x8F, 2)
  else none

/-- How many of the bytes after `b` go with it, whether they make it a character or break off. -/
def following (b : UInt8) (rest : List UInt8) : Nat :=
  match continuation? b, rest with
  | some (low, high, more), c :: rest =>
    if low ≤ c ∧ c ≤ high then 1 + ((rest.take more).takeWhile fun b => 0x80 ≤ b ∧ b ≤ 0xBF).length
    else 0
  | _, _ => 0

/-- The text after the first `seen` bytes, with one mark for each piece that is no character. -/
def lossyAfter (seen : Nat) : List UInt8 → String
  | [] => ""
  | b :: rest =>
    match seen with
    | seen + 1 => lossyAfter seen rest
    | 0 =>
      let n := following b rest
      (ofUtf8? (b :: rest.take n)).getD "\uFFFD" ++ lossyAfter n rest

def lossy (bs : List UInt8) : String := lossyAfter 0 bs

end ServiceMap.Text
