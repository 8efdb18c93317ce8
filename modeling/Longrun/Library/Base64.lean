import Longrun.Library.Utf8

/-!
# Base64

Three bytes are written as four characters of an alphabet of 64, and one or two bytes at the end are
filled up with padding.
-/

namespace Longrun.Base64

/-- The character of six bits. -/
def character (bits : Nat) : CodePoint :=
  if bits < 26 then .ofNat (0x41 + bits)
  else if bits < 52 then .ofNat (0x61 + (bits - 26))
  else if bits < 62 then .ofNat (0x30 + (bits - 52))
  else if bits = 62 then 0x2B
  else 0x2F

/-- The six bits of a character. -/
def bits? (point : CodePoint) : Option Nat :=
  if 0x41 ≤ point ∧ point ≤ 0x5A then some (point.val - 0x41)
  else if 0x61 ≤ point ∧ point ≤ 0x7A then some (point.val - 0x61 + 26)
  else if 0x30 ≤ point ∧ point ≤ 0x39 then some (point.val - 0x30 + 52)
  else if point = 0x2B then some 62
  else if point = 0x2F then some 63
  else none

def padding : CodePoint := 0x3D

/-- `base64.b64encode(data).decode("ascii")`. -/
def encode : List UInt8 → Text
  | [] => []
  | [first] =>
      let a := first.toNat
      [character (a / 4), character (a % 4 * 16), padding, padding]
  | [first, second] =>
      let a := first.toNat
      let b := second.toNat
      [character (a / 4), character (a % 4 * 16 + b / 16), character (b % 16 * 4), padding]
  | first :: second :: third :: bytes =>
      let a := first.toNat
      let b := second.toNat
      let c := third.toNat
      character (a / 4) :: character (a % 4 * 16 + b / 16) :: character (b % 16 * 4 + c / 64) ::
        character (c % 64) :: encode bytes

/-- The three bytes of four times six bits. -/
def firstByte (w x : Nat) : UInt8 := .ofNat (w * 4 + x / 16)

def secondByte (x y : Nat) : UInt8 := .ofNat (x % 16 * 16 + y / 4)

def thirdByte (y z : Nat) : UInt8 := .ofNat (y % 4 * 64 + z)

/-- `base64.b64decode(text)`. -/
def decode : Text → Option (List UInt8)
  | [] => some []
  | w :: x :: y :: z :: text =>
      match bits? w, bits? x with
      | some w, some x =>
          if y = padding ∧ z = padding ∧ text = [] then some [firstByte w x]
          else
            match bits? y with
            | some y =>
                if z = padding ∧ text = [] then some [firstByte w x, secondByte x y]
                else
                  match bits? z, decode text with
                  | some z, some bytes =>
                      some (firstByte w x :: secondByte x y :: thirdByte y z :: bytes)
                  | _, _ => none
            | none => none
      | _, _ => none
  | _ => none

theorem bits?_character {bits : Nat} (small : bits < 64) : bits? (character bits) = some bits := by
  have all : ∀ bits : Fin 64, bits? (character bits.val) = some bits.val := by decide
  exact all ⟨bits, small⟩

theorem bits?_padding : bits? padding = none := by decide

theorem character_ne_padding {bits : Nat} (small : bits < 64) : character bits ≠ padding := by
  intro same
  have read := bits?_character small
  rw [same, bits?_padding] at read
  cases read

theorem ofNat_eq {byte : UInt8} {value : Nat} (same : value = byte.toNat) :
    UInt8.ofNat value = byte := by
  rw [same, UInt8.ofNat_toNat]

theorem decode_encode (bytes : List UInt8) : decode (encode bytes) = some bytes := by
  fun_induction encode bytes with
  | case1 => rfl
  | case2 first a =>
      have bound : a < 256 := first.toNat_lt
      have one : firstByte (a / 4) (a % 4 * 16) = first :=
        ofNat_eq (show a / 4 * 4 + a % 4 * 16 / 16 = a by omega)
      simp only [decode, bits?_character (show a / 4 < 64 by omega),
        bits?_character (show a % 4 * 16 < 64 by omega), and_self, if_true, one]
  | case3 first second a b =>
      have bound : a < 256 := first.toNat_lt
      have bound' : b < 256 := second.toNat_lt
      have one : firstByte (a / 4) (a % 4 * 16 + b / 16) = first :=
        ofNat_eq (show a / 4 * 4 + (a % 4 * 16 + b / 16) / 16 = a by omega)
      have two : secondByte (a % 4 * 16 + b / 16) (b % 16 * 4) = second :=
        ofNat_eq (show (a % 4 * 16 + b / 16) % 16 * 16 + b % 16 * 4 / 4 = b by omega)
      have other := character_ne_padding (show b % 16 * 4 < 64 by omega)
      simp only [decode, bits?_character (show a / 4 < 64 by omega),
        bits?_character (show a % 4 * 16 + b / 16 < 64 by omega),
        bits?_character (show b % 16 * 4 < 64 by omega), other, false_and, and_self, if_false,
        if_true, one, two]
  | case4 first second third bytes a b c ih =>
      have bound : a < 256 := first.toNat_lt
      have bound' : b < 256 := second.toNat_lt
      have bound'' : c < 256 := third.toNat_lt
      have one : firstByte (a / 4) (a % 4 * 16 + b / 16) = first :=
        ofNat_eq (show a / 4 * 4 + (a % 4 * 16 + b / 16) / 16 = a by omega)
      have two : secondByte (a % 4 * 16 + b / 16) (b % 16 * 4 + c / 64) = second :=
        ofNat_eq (show (a % 4 * 16 + b / 16) % 16 * 16 + (b % 16 * 4 + c / 64) / 4 = b by omega)
      have three : thirdByte (b % 16 * 4 + c / 64) (c % 64) = third :=
        ofNat_eq (show (b % 16 * 4 + c / 64) % 4 * 64 + c % 64 = c by omega)
      have other := character_ne_padding (show b % 16 * 4 + c / 64 < 64 by omega)
      have last := character_ne_padding (show c % 64 < 64 by omega)
      simp only [decode, bits?_character (show a / 4 < 64 by omega),
        bits?_character (show a % 4 * 16 + b / 16 < 64 by omega),
        bits?_character (show b % 16 * 4 + c / 64 < 64 by omega),
        bits?_character (show c % 64 < 64 by omega), other, last, false_and, if_false, one, two,
        three, ih]

/-- An encoding is at least as long as what it encodes. -/
theorem length_le_encode (bytes : List UInt8) : bytes.length ≤ (encode bytes).length := by
  fun_induction encode bytes with
  | case1 => simp
  | case2 => simp
  | case3 => simp
  | case4 first second third bytes a b c ih =>
      simp only [List.length_cons]
      omega

/-- A character of the alphabet or the padding. -/
def IsCharacter (point : CodePoint) : Prop := (bits? point).isSome = true ∨ point = padding

theorem isCharacter_of_mem_encode {point : CodePoint} (bytes : List UInt8)
    (mem : point ∈ encode bytes) : IsCharacter point := by
  have character_of (bits : Nat) (small : bits < 64) : IsCharacter (character bits) :=
    .inl (by rw [bits?_character small]; rfl)
  fun_induction encode bytes with
  | case1 => simp at mem
  | case2 first a =>
      have bound : a < 256 := first.toNat_lt
      simp only [List.mem_cons, List.not_mem_nil, or_false] at mem
      rcases mem with rfl | rfl | rfl | rfl
      · exact character_of _ (by omega)
      · exact character_of _ (by omega)
      · exact .inr rfl
      · exact .inr rfl
  | case3 first second a b =>
      have bound : a < 256 := first.toNat_lt
      have bound' : b < 256 := second.toNat_lt
      simp only [List.mem_cons, List.not_mem_nil, or_false] at mem
      rcases mem with rfl | rfl | rfl | rfl
      · exact character_of _ (by omega)
      · exact character_of _ (by omega)
      · exact character_of _ (by omega)
      · exact .inr rfl
  | case4 first second third bytes a b c ih =>
      have bound : a < 256 := first.toNat_lt
      have bound' : b < 256 := second.toNat_lt
      have bound'' : c < 256 := third.toNat_lt
      simp only [List.mem_cons] at mem
      rcases mem with rfl | rfl | rfl | rfl | mem
      · exact character_of _ (by omega)
      · exact character_of _ (by omega)
      · exact character_of _ (by omega)
      · exact character_of _ (by omega)
      · exact ih mem

end Longrun.Base64
