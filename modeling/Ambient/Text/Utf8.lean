/-! Reading bytes as UTF-8. Each character is read from the shortest well-formed
sequence; where bytes are not well formed, every longest beginning of such a
sequence that cannot be completed counts as one fault. Bytes are read as a text
without faults exactly if they are the bytes that write it. -/

namespace Ambient.Text.Utf8

/-! ### Reading and writing -/

/-- What a leading byte announces: how many bytes follow it, the range of the first
of them, and the bits it contributes itself. -/
structure Lead where
  /-- The number of bytes that follow. -/
  following : Nat
  /-- The least byte that may come next. -/
  low : Nat
  /-- The greatest byte that may come next. -/
  high : Nat
  /-- The high bits of the code point. -/
  bits : Nat

/-- Reads a leading byte. Overlong forms, surrogates and code points past the last
plane are excluded by the range of the byte after it. -/
def lead? (b : Nat) : Option Lead :=
  if b < 0x80 then some ⟨0, 0, 0, b⟩
  else if b < 0xC2 then none
  else if b < 0xE0 then some ⟨1, 0x80, 0xBF, b - 0xC0⟩
  else if b = 0xE0 then some ⟨2, 0xA0, 0xBF, 0⟩
  else if b = 0xED then some ⟨2, 0x80, 0x9F, 0xD⟩
  else if b < 0xF0 then some ⟨2, 0x80, 0xBF, b - 0xE0⟩
  else if b = 0xF0 then some ⟨3, 0x90, 0xBF, 0⟩
  else if b < 0xF4 then some ⟨3, 0x80, 0xBF, b - 0xF0⟩
  else if b = 0xF4 then some ⟨3, 0x80, 0x8F, 4⟩
  else none

/-- Reads the bytes after a leading one, as many as announced, and answers the code
point with the bytes left; without a code point where one of them does not fit. -/
def follow : Nat → Nat → Nat → Nat → List UInt8 → Option Nat × List UInt8
  | 0, _, _, bits, rest => (some bits, rest)
  | _ + 1, _, _, _, [] => (none, [])
  | n + 1, low, high, bits, b :: rest =>
    if low ≤ b.toNat ∧ b.toNat ≤ high then
      follow n 0x80 0xBF (bits * 64 + (b.toNat - 0x80)) rest
    else (none, b :: rest)

/-- Reads what a leading byte announces. -/
def Lead.read (l : Lead) (rest : List UInt8) : Option Nat × List UInt8 :=
  follow l.following l.low l.high l.bits rest

theorem follow_length_le (n low high bits : Nat) (l : List UInt8) :
    (follow n low high bits l).2.length ≤ l.length := by
  induction n generalizing low high bits l with
  | zero => simp [follow]
  | succ n ih =>
    cases l with
    | nil => simp [follow]
    | cons b rest =>
      rw [follow]
      split
      · exact Nat.le_trans (ih _ _ _ rest) (Nat.le_succ _)
      · exact Nat.le_refl _

/-- The characters written by the bytes, `none` standing for each fault. -/
def scan : List UInt8 → List (Option Char)
  | [] => []
  | b :: rest =>
    match lead? b.toNat with
    | none => none :: scan rest
    | some lead => (lead.read rest).1.map Char.ofNat :: scan (lead.read rest).2
termination_by l => l.length
decreasing_by
  · simp
  · exact Nat.lt_succ_of_le (follow_length_le _ _ _ _ rest)

/-- The text that the bytes write, if they are well formed throughout. -/
def decode? (bytes : List UInt8) : Option String :=
  ((scan bytes).mapM fun c => c).map String.ofList

/-- The text that the bytes write, with a replacement character for each fault. -/
def decodeLossy (bytes : List UInt8) : String :=
  String.ofList ((scan bytes).map fun c => c.getD '\uFFFD')

/-- The bytes that write a text. -/
def encode (s : String) : List UInt8 := s.toList.flatMap String.utf8EncodeChar

/-! ### What is written is read -/

theorem toNat_byte {n : Nat} (h : n < 256) : (UInt8.ofNat n).toNat = n := by
  rw [UInt8.toNat_ofNat', Nat.mod_eq_of_lt h]

theorem scan_byte {n : Nat} {l : Lead} (hn : n < 256) (h : lead? n = some l) (rest : List UInt8) :
    scan (UInt8.ofNat n :: rest) = (l.read rest).1.map Char.ofNat :: scan (l.read rest).2 := by
  rw [scan, toNat_byte hn, h]

theorem follow_byte {n low high bits m : Nat} (hm : m < 256) (h : low ≤ m ∧ m ≤ high)
    (rest : List UInt8) :
    follow (n + 1) low high bits (UInt8.ofNat m :: rest) =
      follow n 0x80 0xBF (bits * 64 + (m - 0x80)) rest := by
  rw [follow, toNat_byte hm, if_pos h]

theorem lead?_three {n m : Nat} (hn : 0xE0 ≤ n ∧ n < 0xF0) (hm : 0x80 ≤ m ∧ m ≤ 0xBF)
    (h0 : n = 0xE0 → 0xA0 ≤ m) (hD : n = 0xED → m ≤ 0x9F) :
    ∃ low high, lead? n = some ⟨2, low, high, n - 0xE0⟩ ∧ low ≤ m ∧ m ≤ high := by
  by_cases h : n = 0xE0
  · exact ⟨0xA0, 0xBF, by rw [h]; rfl, h0 h, hm.2⟩
  · by_cases h' : n = 0xED
    · exact ⟨0x80, 0x9F, by rw [h']; rfl, hm.1, hD h'⟩
    · exact ⟨0x80, 0xBF, by grind [lead?], hm⟩

theorem lead?_four {n m : Nat} (hn : 0xF0 ≤ n ∧ n < 0xF5) (hm : 0x80 ≤ m ∧ m ≤ 0xBF)
    (h0 : n = 0xF0 → 0x90 ≤ m) (h4 : n = 0xF4 → m ≤ 0x8F) :
    ∃ low high, lead? n = some ⟨3, low, high, n - 0xF0⟩ ∧ low ≤ m ∧ m ≤ high := by
  by_cases h : n = 0xF0
  · exact ⟨0x90, 0xBF, by rw [h]; rfl, h0 h, hm.2⟩
  · by_cases h' : n = 0xF4
    · exact ⟨0x80, 0x8F, by rw [h']; rfl, hm.1, h4 h'⟩
    · exact ⟨0x80, 0xBF, by grind [lead?], hm⟩

/-- The bytes that write a character are read as that character. -/
theorem scan_encodeChar_append (c : Char) (rest : List UInt8) :
    scan (String.utf8EncodeChar c ++ rest) = some c :: scan rest := by
  have hc : c.toNat < 0xD800 ∨ 0xDFFF < c.toNat ∧ c.toNat < 0x110000 := c.valid
  have hn := Char.ofNat_toNat c
  rw [String.utf8EncodeChar]
  change scan ((if c.toNat ≤ 127 then [UInt8.ofNat c.toNat] else
    if c.toNat ≤ 2047 then [.ofNat (c.toNat / 64 % 32 + 192), .ofNat (c.toNat % 64 + 128)] else
    if c.toNat ≤ 65535 then [.ofNat (c.toNat / 4096 % 16 + 224), .ofNat (c.toNat / 64 % 64 + 128),
      .ofNat (c.toNat % 64 + 128)] else
    [.ofNat (c.toNat / 262144 % 8 + 240), .ofNat (c.toNat / 4096 % 64 + 128),
      .ofNat (c.toNat / 64 % 64 + 128), .ofNat (c.toNat % 64 + 128)]) ++ rest) = _
  generalize c.toNat = v at hc hn ⊢
  subst hn
  split
  · exact scan_byte (l := ⟨0, 0, 0, v⟩) (by omega) (by grind [lead?]) rest
  split
  · have h : lead? (v / 64 % 32 + 192) = some ⟨1, 0x80, 0xBF, v / 64⟩ := by grind [lead?]
    have e : v / 64 * 64 + (v % 64 + 128 - 128) = v := by omega
    simp only [List.cons_append, List.nil_append]
    rw [scan_byte (by omega) h, Lead.read, follow_byte (by omega) ⟨by simp, by simp; omega⟩,
      follow, e]
    rfl
  split
  · obtain ⟨low, high, h, hl⟩ := lead?_three (n := v / 4096 % 16 + 224)
      (m := v / 64 % 64 + 128) (by omega) (by omega) (by omega) (by omega)
    have e : ((v / 4096 % 16 + 224 - 224) * 64 + (v / 64 % 64 + 128 - 128)) * 64 +
      (v % 64 + 128 - 128) = v := by omega
    simp only [List.cons_append, List.nil_append]
    rw [scan_byte (by omega) h, Lead.read, follow_byte (by omega) hl,
      follow_byte (by omega) (by omega), follow, e]
    rfl
  · obtain ⟨low, high, h, hl⟩ := lead?_four (n := v / 262144 % 8 + 240)
      (m := v / 4096 % 64 + 128) (by omega) (by omega) (by omega) (by omega)
    have e : (((v / 262144 % 8 + 240 - 240) * 64 + (v / 4096 % 64 + 128 - 128)) * 64 +
      (v / 64 % 64 + 128 - 128)) * 64 + (v % 64 + 128 - 128) = v := by omega
    simp only [List.cons_append, List.nil_append]
    rw [scan_byte (by omega) h, Lead.read, follow_byte (by omega) hl,
      follow_byte (by omega) (by omega), follow_byte (by omega) (by omega), follow, e]
    rfl

theorem scan_flatMap (l : List Char) : scan (l.flatMap String.utf8EncodeChar) = l.map some := by
  induction l with
  | nil => simp [scan]
  | cons c l ih => rw [List.flatMap_cons, scan_encodeChar_append, ih, List.map_cons]

/-! ### What is read was written -/

theorem lead?_some {n : Nat} {l : Lead} (h : lead? n = some l) :
    l.following = 0 ∧ l.bits = n ∧ n < 0x80 ∨
    l.following = 1 ∧ l.bits = n - 0xC0 ∧ (0xC2 ≤ n ∧ n < 0xE0) ∧ l.low = 0x80 ∧ l.high = 0xBF ∨
    l.following = 2 ∧ l.bits = n - 0xE0 ∧ (0xE0 ≤ n ∧ n < 0xF0) ∧ (0x80 ≤ l.low ∧ l.high ≤ 0xBF) ∧
      (n = 0xE0 → 0xA0 ≤ l.low) ∧ (n = 0xED → l.high ≤ 0x9F) ∨
    l.following = 3 ∧ l.bits = n - 0xF0 ∧ (0xF0 ≤ n ∧ n < 0xF5) ∧ (0x80 ≤ l.low ∧ l.high ≤ 0xBF) ∧
      (n = 0xF0 → 0x90 ≤ l.low) ∧ (n = 0xF4 → l.high ≤ 0x8F) := by
  grind [lead?]

theorem follow_some {n low high bits v : Nat} {l rest : List UInt8}
    (h : follow (n + 1) low high bits l = (some v, rest)) :
    ∃ b l', l = b :: l' ∧ (low ≤ b.toNat ∧ b.toNat ≤ high) ∧
      follow n 0x80 0xBF (bits * 64 + (b.toNat - 0x80)) l' = (some v, rest) := by
  cases l with
  | nil => simp [follow] at h
  | cons b l' =>
    rw [follow] at h
    split at h
    · exact ⟨b, l', rfl, ‹_›, h⟩
    · simp at h

theorem toNat_ofNat {v : Nat} (h : v < 0xD800 ∨ 0xDFFF < v ∧ v < 0x110000) :
    (Char.ofNat v).val.toNat = v := by
  have hv : v.isValidChar := h
  rw [Char.ofNat, dif_pos hv]
  rfl

theorem byte_eq {n : Nat} {b : UInt8} (h : n = b.toNat) : UInt8.ofNat n = b := by
  rw [h, UInt8.ofNat_toNat]

/-- A leading byte with what follows it is what writes the character read. -/
theorem encodeChar_of_read {b : UInt8} {l : Lead} {v : Nat} {rest left : List UInt8}
    (hl : lead? b.toNat = some l) (h : l.read rest = (some v, left)) :
    String.utf8EncodeChar (Char.ofNat v) ++ left = b :: rest := by
  rw [Lead.read] at h
  rcases lead?_some hl with ⟨hf, hb⟩ | ⟨hf, hb⟩ | ⟨hf, hb⟩ | ⟨hf, hb⟩
  · rw [hf] at h
    obtain ⟨rfl, rfl⟩ : l.bits = v ∧ rest = left := by simpa [follow] using h
    rw [String.utf8EncodeChar, toNat_ofNat (by omega), if_pos (by omega),
      byte_eq (b := b) (by omega)]
    rfl
  · rw [hf] at h
    obtain ⟨b₁, r₁, rfl, h₁, h⟩ := follow_some h
    obtain ⟨rfl, rfl⟩ : _ = v ∧ _ = left := by simpa [follow] using h
    rw [String.utf8EncodeChar, toNat_ofNat (by omega), if_neg (by omega), if_pos (by omega),
      byte_eq (b := b) (by omega), byte_eq (b := b₁) (by omega)]
    rfl
  · rw [hf] at h
    obtain ⟨b₁, r₁, rfl, h₁, h⟩ := follow_some h
    obtain ⟨b₂, r₂, rfl, h₂, h⟩ := follow_some h
    obtain ⟨rfl, rfl⟩ : _ = v ∧ _ = left := by simpa [follow] using h
    rw [String.utf8EncodeChar, toNat_ofNat (by omega), if_neg (by omega), if_neg (by omega),
      if_pos (by omega), byte_eq (b := b) (by omega), byte_eq (b := b₁) (by omega),
      byte_eq (b := b₂) (by omega)]
    rfl
  · rw [hf] at h
    obtain ⟨b₁, r₁, rfl, h₁, h⟩ := follow_some h
    obtain ⟨b₂, r₂, rfl, h₂, h⟩ := follow_some h
    obtain ⟨b₃, r₃, rfl, h₃, h⟩ := follow_some h
    obtain ⟨rfl, rfl⟩ : _ = v ∧ _ = left := by simpa [follow] using h
    rw [String.utf8EncodeChar, toNat_ofNat (by omega), if_neg (by omega), if_neg (by omega),
      if_neg (by omega), byte_eq (b := b) (by omega), byte_eq (b := b₁) (by omega),
      byte_eq (b := b₂) (by omega), byte_eq (b := b₃) (by omega)]
    rfl

theorem flatMap_of_scan {bytes : List UInt8} {l : List Char} (h : scan bytes = l.map some) :
    l.flatMap String.utf8EncodeChar = bytes := by
  fun_induction scan bytes generalizing l with
  | case1 =>
    cases l with
    | nil => rfl
    | cons c l => simp at h
  | case2 b rest hb ih => cases l <;> simp at h
  | case3 b rest lead hl ih =>
    cases l with
    | nil => simp at h
    | cons c l =>
      obtain ⟨h₁, h₂⟩ := List.cons.inj h
      obtain ⟨v, hv, rfl⟩ := Option.map_eq_some_iff.1 h₁
      rw [List.flatMap_cons, ih h₂]
      exact encodeChar_of_read hl (Prod.ext hv rfl)

theorem mapM_eq_some_iff {α : Type} {l : List (Option α)} {m : List α} :
    l.mapM (fun a => a) = some m ↔ l = m.map some := by
  induction l generalizing m with
  | nil => cases m <;> simp
  | cons a l ih =>
    cases a <;> cases m <;> simp [Option.bind_eq_some_iff, ih]
    exact And.comm

/-- Bytes are read as a text exactly if they are the ones that write it. -/
theorem decode?_eq_some_iff {bytes : List UInt8} {s : String} :
    decode? bytes = some s ↔ bytes = encode s := by
  rw [decode?, Option.map_eq_some_iff]
  constructor
  · rintro ⟨l, hl, rfl⟩
    rw [encode, String.toList_ofList, flatMap_of_scan (mapM_eq_some_iff.1 hl)]
  · rintro rfl
    exact ⟨s.toList, mapM_eq_some_iff.2 (scan_flatMap s.toList), String.ofList_toList⟩

end Ambient.Text.Utf8
