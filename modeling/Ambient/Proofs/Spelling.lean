import Ambient.Table
import Ambient.Text.Utf8
import Mathlib.Data.String.Basic
import Mathlib.Data.List.Lex

/-! The order of texts. Texts compare as their sequences of characters do, where the first
difference decides and a beginning comes before what goes on. Proved: they compare in the same way
by the code points of their characters, and by the bytes that write them. -/

namespace Ambient.Text

/-- The code points of a text's characters. -/
def scalars (s : String) : List ℕ := s.toList.map Char.toNat

/-- The bytes that write a text, as numbers. -/
def bytes (s : String) : List ℕ := (Utf8.encode s).map UInt8.toNat

/-- The bytes that write a character, by its code point. -/
def byteValues (v : ℕ) : List ℕ :=
  if v ≤ 127 then [v] else
  if v ≤ 2047 then [v / 64 % 32 + 192, v % 64 + 128] else
  if v ≤ 65535 then [v / 4096 % 16 + 224, v / 64 % 64 + 128, v % 64 + 128] else
  [v / 262144 % 8 + 240, v / 4096 % 64 + 128, v / 64 % 64 + 128, v % 64 + 128]

theorem toNat_encodeChar (c : Char) :
    (String.utf8EncodeChar c).map UInt8.toNat = byteValues c.toNat := by
  rw [String.utf8EncodeChar]
  change List.map UInt8.toNat (if c.toNat ≤ 127 then [UInt8.ofNat c.toNat] else
    if c.toNat ≤ 2047 then [.ofNat (c.toNat / 64 % 32 + 192), .ofNat (c.toNat % 64 + 128)] else
    if c.toNat ≤ 65535 then [.ofNat (c.toNat / 4096 % 16 + 224), .ofNat (c.toNat / 64 % 64 + 128),
      .ofNat (c.toNat % 64 + 128)] else
    [.ofNat (c.toNat / 262144 % 8 + 240), .ofNat (c.toNat / 4096 % 64 + 128),
      .ofNat (c.toNat / 64 % 64 + 128), .ofNat (c.toNat % 64 + 128)]) = _
  rw [byteValues]
  generalize c.toNat = v
  split
  · simp only [List.map_cons, List.map_nil]
    rw [Utf8.toNat_byte (by omega)]
  split
  · simp only [List.map_cons, List.map_nil]
    rw [Utf8.toNat_byte (by omega), Utf8.toNat_byte (by omega)]
  split
  · simp only [List.map_cons, List.map_nil]
    rw [Utf8.toNat_byte (by omega), Utf8.toNat_byte (by omega), Utf8.toNat_byte (by omega)]
  · simp only [List.map_cons, List.map_nil]
    rw [Utf8.toNat_byte (by omega), Utf8.toNat_byte (by omega), Utf8.toNat_byte (by omega),
      Utf8.toNat_byte (by omega)]

theorem bytes_eq_flatMap (s : String) : bytes s = s.toList.flatMap fun c => byteValues c.toNat := by
  rw [bytes, Utf8.encode, List.map_flatMap]
  simp only [toNat_encodeChar]

/-! ### Characters -/

/-- The lists have a difference, and at the first one the number on the left is less. -/
inductive Differs : List ℕ → List ℕ → Prop
  | here {x y} (h : x < y) (l m) : Differs (x :: l) (y :: m)
  | later (x) {l m} (h : Differs l m) : Differs (x :: l) (x :: m)

theorem Differs.lt_append {l m : List ℕ} (h : Differs l m) (l' m' : List ℕ) :
    l ++ l' < m ++ m' := by
  induction h with
  | here h l m => exact List.cons_lt_cons_iff.2 (.inl h)
  | later x _ ih => exact List.cons_lt_cons_iff.2 (.inr ⟨rfl, ih⟩)

theorem differs_cons {x y : ℕ} {l m : List ℕ} (hle : x ≤ y) (h : x = y → Differs l m) :
    Differs (x :: l) (y :: m) := by
  rcases Nat.lt_or_eq_of_le hle with hlt | rfl
  · exact .here hlt l m
  · exact .later x (h rfl)

/-- Bytes that write different characters tell them apart, the first difference by itself: what is
written longer begins with a greater byte. -/
theorem differs_byteValues {v w : ℕ} (h : v < w) (hw : w < 0x110000) :
    Differs (byteValues v) (byteValues w) := by
  rw [byteValues, byteValues]
  split_ifs
  · exact .here h _ _
  · exact .here (by omega) _ _
  · exact .here (by omega) _ _
  · exact .here (by omega) _ _
  · omega
  · exact differs_cons (by omega) fun _ => .here (by omega) _ _
  · exact .here (by omega) _ _
  · exact .here (by omega) _ _
  · omega
  · omega
  · exact differs_cons (by omega) fun _ => differs_cons (by omega) fun _ => .here (by omega) _ _
  · exact .here (by omega) _ _
  · omega
  · omega
  · omega
  · exact differs_cons (by omega) fun _ => differs_cons (by omega) fun _ =>
      differs_cons (by omega) fun _ => .here (by omega) _ _

theorem byteValues_ne_nil (v : ℕ) : byteValues v ≠ [] := by
  rw [byteValues]
  split_ifs <;> simp

theorem toNat_lt_of_char (c : Char) : c.toNat < 0x110000 := by
  have hc : c.toNat < 0xD800 ∨ 0xDFFF < c.toNat ∧ c.toNat < 0x110000 := c.valid
  omega

/-! ### Texts -/

theorem strictMono_scalars : StrictMono scalars := fun _ _ h =>
  List.map_lt (fun _ _ hcd => hcd) (String.lt_iff_toList_lt.1 h)

theorem flatMap_byteValues_lt {l m : List Char} (h : l < m) :
    (l.flatMap fun c => byteValues c.toNat) < m.flatMap fun c => byteValues c.toNat := by
  induction l generalizing m with
  | nil =>
    cases m with
    | nil => exact absurd h (List.lt_irrefl [])
    | cons d m =>
      obtain ⟨x, l, hl⟩ := List.exists_cons_of_ne_nil (byteValues_ne_nil d.toNat)
      simp [hl]
  | cons c l ih =>
    cases m with
    | nil => exact absurd h (List.not_lt_nil _)
    | cons d m =>
      rw [List.flatMap_cons, List.flatMap_cons]
      rcases List.cons_lt_cons_iff.1 h with hcd | ⟨rfl, hlm⟩
      · exact (differs_byteValues hcd (toNat_lt_of_char d)).lt_append _ _
      · exact List.append_left_lt (ih hlm)

theorem strictMono_bytes : StrictMono bytes := fun s t h => by
  rw [bytes_eq_flatMap, bytes_eq_flatMap]
  exact flatMap_byteValues_lt (String.lt_iff_toList_lt.1 h)

/-- Texts compare by the bytes that write them. -/
theorem bytes_lt_bytes_iff {s t : String} : bytes s < bytes t ↔ s < t := strictMono_bytes.lt_iff_lt

/-- Texts compare by their code points. -/
theorem scalars_lt_scalars_iff {s t : String} : scalars s < scalars t ↔ s < t :=
  strictMono_scalars.lt_iff_lt

end Ambient.Text
