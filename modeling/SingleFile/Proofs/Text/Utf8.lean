import SingleFile.Text.Utf8

/-!
# Decoding and encoding

Octets are decoded exactly when they are the encoding of a text, and then to this text.
A lead octet promises a number of octets that complete it; the bounds of the first of
these leave exactly the sequences that encode a character.

Main results:

- Theorem `decodeFrom_pending_iff`: what a sequence in progress reads.
- Theorem `reads_iff`: a sequence is read as a character exactly when it encodes it.
- Theorem `decode_eq_ok_iff`: decoding undoes encoding, and nothing else is decoded.
-/

namespace SingleFile.Text.Utf8

/-! ## Sequences -/

/-- Octets that complete a sequence: how many are missing, the bounds of the first of
them, the bits read before, and the number that is read in the end. -/
inductive Completes : Nat → Nat → Nat → Nat → List UInt8 → Nat → Prop
  | last {low high bits : Nat} {b : UInt8} (hb : low ≤ b.toNat ∧ b.toNat ≤ high) :
      Completes 1 low high bits [b] (64 * bits + b.toNat % 64)
  | more {missing low high bits n : Nat} {b : UInt8} {bs : List UInt8}
      (hb : low ≤ b.toNat ∧ b.toNat ≤ high)
      (h : Completes (missing + 1) 0x80 0xBF (64 * bits + b.toNat % 64) bs n) :
      Completes (missing + 2) low high bits (b :: bs) n

/-- A sequence of octets that is read as a character. -/
inductive Reads : List UInt8 → Char → Prop
  | single {b : UInt8} (hb : lead b.toNat = .single) : Reads [b] (Char.ofNat b.toNat)
  | sequence {b : UInt8} {missing low high bits n : Nat} {bs : List UInt8}
      (hb : lead b.toNat = .sequence (missing + 1) low high bits)
      (h : Completes (missing + 1) low high bits bs n) : Reads (b :: bs) (Char.ofNat n)

/-- A character is written by one octet at least. -/
theorem Reads.length_pos {octets : List UInt8} {c : Char} (h : Reads octets c) :
    0 < octets.length := by
  cases h <;> simp

theorem map_eq_ok_iff {α β : Type} (f : α → β) (r : Except DecodeError α) (b : β) :
    f <$> r = .ok b ↔ ∃ a, r = .ok a ∧ b = f a := by
  cases r with
  | error e => simp [Functor.map, Except.map]
  | ok a => simp [Functor.map, Except.map, eq_comm]

/-- What a sequence in progress reads: the octets that complete it, and what follows. -/
theorem decodeFrom_pending_iff {missing : Nat} (position start low high bits : Nat)
    (bs : List UInt8) (cs : List Char) :
    decodeFrom position (some ⟨start, missing + 1, low, high, bits⟩) bs = .ok cs ↔
      ∃ tail n rest cs', Completes (missing + 1) low high bits tail n ∧ bs = tail ++ rest ∧
        decodeFrom (position + tail.length) none rest = .ok cs' ∧ cs = Char.ofNat n :: cs' := by
  induction missing generalizing position low high bits bs with
  | zero =>
      constructor
      · intro h
        cases bs with
        | nil => cases h
        | cons b bs =>
            rw [decodeFrom] at h
            split at h
            · rename_i hb
              obtain ⟨cs', hrest, rfl⟩ := (map_eq_ok_iff _ _ _).mp h
              exact ⟨[b], _, bs, cs', .last hb, rfl, hrest, rfl⟩
            · cases h
      · rintro ⟨_, _, rest, cs', htail, rfl, hrest, rfl⟩
        cases htail with
        | last hb =>
            rw [List.singleton_append, decodeFrom, if_pos hb]
            exact (map_eq_ok_iff _ _ _).mpr ⟨cs', hrest, rfl⟩
  | succ missing ih =>
      constructor
      · intro h
        cases bs with
        | nil => cases h
        | cons b bs =>
            rw [decodeFrom] at h
            split at h
            · rename_i hb
              rw [if_neg (by simp)] at h
              obtain ⟨tail, n, rest, cs', htail, rfl, hrest, rfl⟩ := (ih _ _ _ _ _).mp h
              refine ⟨b :: tail, n, rest, cs', .more hb htail, rfl, ?_, rfl⟩
              rwa [List.length_cons, Nat.add_comm tail.length 1, ← Nat.add_assoc]
            · cases h
      · rintro ⟨_, n, rest, cs', htail, rfl, hrest, rfl⟩
        cases htail with
        | more hb htail =>
            rw [List.cons_append, decodeFrom, if_pos hb, if_neg (by simp)]
            refine (ih _ _ _ _ _).mpr ⟨_, n, rest, cs', htail, rfl, ?_, rfl⟩
            rwa [List.length_cons, Nat.add_comm _ 1, ← Nat.add_assoc] at hrest

/-! ## Lead octets -/

theorem lead_of_lt {n : Nat} (h : n < 0x80) : lead n = .single := by
  rw [lead, if_pos h]

theorem lead_two {n : Nat} (h : 0xC2 ≤ n) (h' : n < 0xE0) :
    lead n = .sequence 1 0x80 0xBF (n - 0xC0) := by
  rw [lead, if_neg (by omega), if_neg (by omega), if_pos h']

theorem lead_three {n : Nat} (h : 0xE0 ≤ n) (h' : n < 0xF0) :
    lead n = .sequence 2 (if n = 0xE0 then 0xA0 else 0x80) (if n = 0xED then 0x9F else 0xBF)
      (n - 0xE0) := by
  rw [lead, if_neg (by omega), if_neg (by omega), if_neg (by omega)]
  by_cases h₀ : n = 0xE0
  · subst h₀
    rfl
  · by_cases h₁ : n = 0xED
    · subst h₁
      rfl
    · simp only [h₀, h₁, h', if_false, if_true]

theorem lead_four {n : Nat} (h : 0xF0 ≤ n) (h' : n < 0xF5) :
    lead n = .sequence 3 (if n = 0xF0 then 0x90 else 0x80) (if n = 0xF4 then 0x8F else 0xBF)
      (n - 0xF0) := by
  rw [lead, if_neg (by omega), if_neg (by omega), if_neg (by omega), if_neg (by omega),
    if_neg (by omega), if_neg (by omega)]
  by_cases h₀ : n = 0xF0
  · subst h₀
    rfl
  · by_cases h₁ : n = 0xF4
    · subst h₁
      rfl
    · have h₂ : n < 0xF4 := by omega
      simp only [h₀, h₁, h₂, if_false, if_true]

/-- An octet that does not begin a sequence. -/
theorem lead_invalid {n : Nat} (h : 0x80 ≤ n ∧ n < 0xC2 ∨ 0xF5 ≤ n) : lead n = .invalid := by
  rcases h with ⟨h, h'⟩ | h
  · rw [lead, if_neg (by omega), if_pos h']
  · rw [lead, if_neg (by omega), if_neg (by omega), if_neg (by omega), if_neg (by omega),
      if_neg (by omega), if_neg (by omega), if_neg (by omega), if_neg (by omega),
      if_neg (by omega)]

/-- The four kinds of sequences, told by their lead octets. -/
theorem lead_ranges (n : Nat) :
    n < 0x80 ∨ (0xC2 ≤ n ∧ n < 0xE0) ∨ (0xE0 ≤ n ∧ n < 0xF0) ∨ (0xF0 ≤ n ∧ n < 0xF5) ∨
      lead n = .invalid := by
  by_cases h : 0x80 ≤ n ∧ n < 0xC2 ∨ 0xF5 ≤ n
  · exact .inr (.inr (.inr (.inr (lead_invalid h))))
  · omega

/-- A character of its own is below 0x80. -/
theorem lt_of_lead_single {n : Nat} (h : lead n = .single) : n < 0x80 := by
  rcases lead_ranges n with hn | ⟨hn, hn'⟩ | ⟨hn, hn'⟩ | ⟨hn, hn'⟩ | hn
  · exact hn
  · rw [lead_two hn hn'] at h
    cases h
  · rw [lead_three hn hn'] at h
    cases h
  · rw [lead_four hn hn'] at h
    cases h
  · rw [hn] at h
    cases h

/-- The three kinds of sequences of more than one octet. -/
theorem lead_sequence_cases {n missing low high bits : Nat}
    (h : lead n = .sequence missing low high bits) :
    (0xC2 ≤ n ∧ n < 0xE0 ∧ missing = 1 ∧ low = 0x80 ∧ high = 0xBF ∧ bits = n - 0xC0) ∨
    (0xE0 ≤ n ∧ n < 0xF0 ∧ missing = 2 ∧ low = (if n = 0xE0 then 0xA0 else 0x80) ∧
      high = (if n = 0xED then 0x9F else 0xBF) ∧ bits = n - 0xE0) ∨
    (0xF0 ≤ n ∧ n < 0xF5 ∧ missing = 3 ∧ low = (if n = 0xF0 then 0x90 else 0x80) ∧
      high = (if n = 0xF4 then 0x8F else 0xBF) ∧ bits = n - 0xF0) := by
  rcases lead_ranges n with hn | ⟨hn, hn'⟩ | ⟨hn, hn'⟩ | ⟨hn, hn'⟩ | hn
  · rw [lead_of_lt hn] at h
    cases h
  · rw [lead_two hn hn'] at h
    cases h
    exact .inl ⟨hn, hn', rfl, rfl, rfl, rfl⟩
  · rw [lead_three hn hn'] at h
    cases h
    exact .inr (.inl ⟨hn, hn', rfl, rfl, rfl, rfl⟩)
  · rw [lead_four hn hn'] at h
    cases h
    exact .inr (.inr ⟨hn, hn', rfl, rfl, rfl, rfl⟩)
  · rw [hn] at h
    cases h

/-- What is read between two characters: a sequence, and what follows. -/
theorem decodeFrom_cons_iff (position : Nat) (b : UInt8) (bs : List UInt8) (cs : List Char) :
    decodeFrom position none (b :: bs) = .ok cs ↔
      ∃ octets c rest cs', Reads octets c ∧ b :: bs = octets ++ rest ∧
        decodeFrom (position + octets.length) none rest = .ok cs' ∧ cs = c :: cs' := by
  constructor
  · intro h
    rw [decodeFrom] at h
    split at h
    · rename_i hb
      obtain ⟨cs', hrest, rfl⟩ := (map_eq_ok_iff _ _ _).mp h
      exact ⟨[b], _, bs, cs', .single hb, rfl, hrest, rfl⟩
    · rename_i missing _ _ _ hb
      obtain ⟨missing, rfl⟩ : ∃ m, missing = m + 1 := by
        rcases lead_sequence_cases hb with ⟨_, _, rfl, _⟩ | ⟨_, _, rfl, _⟩ | ⟨_, _, rfl, _⟩
        · exact ⟨0, rfl⟩
        · exact ⟨1, rfl⟩
        · exact ⟨2, rfl⟩
      obtain ⟨tail, n, rest, cs', htail, rfl, hrest, rfl⟩ :=
        (decodeFrom_pending_iff _ _ _ _ _ _ _).mp h
      refine ⟨b :: tail, _, rest, cs', .sequence hb htail, rfl, ?_, rfl⟩
      rwa [List.length_cons, Nat.add_comm tail.length 1, ← Nat.add_assoc]
    · cases h
  · rintro ⟨_, _, rest, cs', hreads, heq, hrest, rfl⟩
    cases hreads with
    | single hb =>
        obtain ⟨rfl, rfl⟩ := List.cons.inj heq
        rw [decodeFrom, hb]
        exact (map_eq_ok_iff _ _ _).mpr ⟨cs', hrest, rfl⟩
    | sequence hb htail =>
        obtain ⟨rfl, rfl⟩ := List.cons.inj heq
        rw [decodeFrom, hb]
        refine (decodeFrom_pending_iff _ _ _ _ _ _ _).mpr ⟨_, _, rest, cs', htail, rfl, ?_, rfl⟩
        rwa [List.length_cons, Nat.add_comm _ 1, ← Nat.add_assoc] at hrest

/-! ## Sequences and characters -/

/-- The code point of a character is below U+110000 and no surrogate. -/
theorem toNat_valid (c : Char) : c.toNat < 0xD800 ∨ 0xDFFF < c.toNat ∧ c.toNat < 0x110000 :=
  c.valid

theorem toNat_ofNat_of_valid {n : Nat} (h : n < 0xD800 ∨ 0xDFFF < n ∧ n < 0x110000) :
    (Char.ofNat n).toNat = n := by
  rw [Char.ofNat, dif_pos h]
  rfl

section Encoding

variable {c : Char}

theorem utf8EncodeChar_one (h : c.toNat ≤ 0x7F) :
    String.utf8EncodeChar c = [UInt8.ofNat c.toNat] := by
  have hv : c.val.toNat ≤ 127 := h
  simp only [String.utf8EncodeChar, hv, if_true]
  rfl

theorem utf8EncodeChar_two (h : 0x7F < c.toNat) (h' : c.toNat ≤ 0x7FF) :
    String.utf8EncodeChar c =
      [UInt8.ofNat (c.toNat / 64 + 0xC0), UInt8.ofNat (c.toNat % 64 + 0x80)] := by
  have hv : ¬ c.val.toNat ≤ 127 := Nat.not_le.mpr h
  have hv' : c.val.toNat ≤ 2047 := h'
  have hlead : c.val.toNat / 64 % 32 = c.val.toNat / 64 := by omega
  simp only [String.utf8EncodeChar, hv, hv', if_false, if_true, hlead]
  rfl

theorem utf8EncodeChar_three (h : 0x7FF < c.toNat) (h' : c.toNat ≤ 0xFFFF) :
    String.utf8EncodeChar c =
      [UInt8.ofNat (c.toNat / 4096 + 0xE0), UInt8.ofNat (c.toNat / 64 % 64 + 0x80),
        UInt8.ofNat (c.toNat % 64 + 0x80)] := by
  have hv : ¬ c.val.toNat ≤ 2047 := Nat.not_le.mpr h
  have hv' : c.val.toNat ≤ 65535 := h'
  have hv₀ : ¬ c.val.toNat ≤ 127 := by omega
  have hlead : c.val.toNat / 4096 % 16 = c.val.toNat / 4096 := by omega
  simp only [String.utf8EncodeChar, hv₀, hv, hv', if_false, if_true, hlead]
  rfl

theorem utf8EncodeChar_four (h : 0xFFFF < c.toNat) :
    String.utf8EncodeChar c =
      [UInt8.ofNat (c.toNat / 262144 + 0xF0), UInt8.ofNat (c.toNat / 4096 % 64 + 0x80),
        UInt8.ofNat (c.toNat / 64 % 64 + 0x80), UInt8.ofNat (c.toNat % 64 + 0x80)] := by
  have hv : ¬ c.val.toNat ≤ 65535 := Nat.not_le.mpr h
  have hv₀ : ¬ c.val.toNat ≤ 127 := by omega
  have hv₁ : ¬ c.val.toNat ≤ 2047 := by omega
  have hvalid : c.val.toNat < 0x110000 := by
    have := toNat_valid c
    change c.toNat < 0x110000
    omega
  have hlead : c.val.toNat / 262144 % 8 = c.val.toNat / 262144 := by omega
  simp only [String.utf8EncodeChar, hv₀, hv₁, hv, if_false, hlead]
  rfl

end Encoding

theorem ofNat_eq {n : Nat} {b : UInt8} (h : n = b.toNat) : UInt8.ofNat n = b := by
  rw [h, UInt8.ofNat_toNat]

section Octets

variable {b b₁ b₂ b₃ : UInt8}

/-- Two octets encode the number that they write. -/
theorem utf8EncodeChar_ofNat_two {n : Nat} (hb : 0xC2 ≤ b.toNat ∧ b.toNat < 0xE0)
    (hb₁ : 0x80 ≤ b₁.toNat ∧ b₁.toNat ≤ 0xBF)
    (hn : n = 64 * (b.toNat - 0xC0) + b₁.toNat % 64) :
    String.utf8EncodeChar (Char.ofNat n) = [b, b₁] := by
  have hvalue : (Char.ofNat n).toNat = n := toNat_ofNat_of_valid (by omega)
  rw [utf8EncodeChar_two (by omega) (by omega), hvalue, ofNat_eq (b := b) (by omega),
    ofNat_eq (b := b₁) (by omega)]

/-- Three octets encode the number that they write, unless they are longer than is
needed or write a surrogate. -/
theorem utf8EncodeChar_ofNat_three {n : Nat} (hb : 0xE0 ≤ b.toNat ∧ b.toNat < 0xF0)
    (hlow : (if b.toNat = 0xE0 then 0xA0 else 0x80) ≤ b₁.toNat)
    (hhigh : b₁.toNat ≤ if b.toNat = 0xED then 0x9F else 0xBF)
    (hb₂ : 0x80 ≤ b₂.toNat ∧ b₂.toNat ≤ 0xBF)
    (hn : n = 64 * (64 * (b.toNat - 0xE0) + b₁.toNat % 64) + b₂.toNat % 64) :
    String.utf8EncodeChar (Char.ofNat n) = [b, b₁, b₂] := by
  have hlow' : 0x80 ≤ b₁.toNat ∧ (b.toNat = 0xE0 → 0xA0 ≤ b₁.toNat) := by
    split at hlow <;> omega
  have hhigh' : b₁.toNat ≤ 0xBF ∧ (b.toNat = 0xED → b₁.toNat ≤ 0x9F) := by
    split at hhigh <;> omega
  have hvalue : (Char.ofNat n).toNat = n := toNat_ofNat_of_valid (by omega)
  rw [utf8EncodeChar_three (by omega) (by omega), hvalue, ofNat_eq (b := b) (by omega),
    ofNat_eq (b := b₁) (by omega), ofNat_eq (b := b₂) (by omega)]

/-- Four octets encode the number that they write, unless they are longer than is needed
or write a number that is too large. -/
theorem utf8EncodeChar_ofNat_four {n : Nat} (hb : 0xF0 ≤ b.toNat ∧ b.toNat < 0xF5)
    (hlow : (if b.toNat = 0xF0 then 0x90 else 0x80) ≤ b₁.toNat)
    (hhigh : b₁.toNat ≤ if b.toNat = 0xF4 then 0x8F else 0xBF)
    (hb₂ : 0x80 ≤ b₂.toNat ∧ b₂.toNat ≤ 0xBF) (hb₃ : 0x80 ≤ b₃.toNat ∧ b₃.toNat ≤ 0xBF)
    (hn : n = 64 * (64 * (64 * (b.toNat - 0xF0) + b₁.toNat % 64) + b₂.toNat % 64) +
      b₃.toNat % 64) :
    String.utf8EncodeChar (Char.ofNat n) = [b, b₁, b₂, b₃] := by
  have hlow' : 0x80 ≤ b₁.toNat ∧ (b.toNat = 0xF0 → 0x90 ≤ b₁.toNat) := by
    split at hlow <;> omega
  have hhigh' : b₁.toNat ≤ 0xBF ∧ (b.toNat = 0xF4 → b₁.toNat ≤ 0x8F) := by
    split at hhigh <;> omega
  have hvalue : (Char.ofNat n).toNat = n := toNat_ofNat_of_valid (by omega)
  rw [utf8EncodeChar_four (by omega), hvalue, ofNat_eq (b := b) (by omega),
    ofNat_eq (b := b₁) (by omega), ofNat_eq (b := b₂) (by omega), ofNat_eq (b := b₃) (by omega)]

end Octets

/-- What is read as a character encodes it. -/
theorem eq_utf8EncodeChar_of_reads {octets : List UInt8} {c : Char} (h : Reads octets c) :
    octets = String.utf8EncodeChar c := by
  cases h with
  | @single b hb =>
      have hlt := lt_of_lead_single hb
      have hvalue : (Char.ofNat b.toNat).toNat = b.toNat := toNat_ofNat_of_valid (by omega)
      rw [utf8EncodeChar_one (by omega), hvalue, UInt8.ofNat_toNat]
  | sequence hb htail =>
      rcases lead_sequence_cases hb with ⟨hl, hl', hm, rfl, rfl, hbits⟩ |
        ⟨hl, hl', hm, rfl, rfl, hbits⟩ | ⟨hl, hl', hm, rfl, rfl, hbits⟩
      · obtain rfl := Nat.succ.inj hm
        cases htail with
        | last hb₁ => exact (utf8EncodeChar_ofNat_two ⟨hl, hl'⟩ hb₁ (by rw [hbits])).symm
      · obtain rfl := Nat.succ.inj hm
        cases htail with
        | more hb₁ htail =>
            cases htail with
            | last hb₂ =>
                exact (utf8EncodeChar_ofNat_three ⟨hl, hl'⟩ hb₁.1 hb₁.2 hb₂ (by rw [hbits])).symm
      · obtain rfl := Nat.succ.inj hm
        cases htail with
        | more hb₁ htail =>
            cases htail with
            | more hb₂ htail =>
                cases htail with
                | last hb₃ =>
                    exact (utf8EncodeChar_ofNat_four ⟨hl, hl'⟩ hb₁.1 hb₁.2 hb₂ hb₃
                      (by rw [hbits])).symm

section Reading

variable {c : Char} {b b₁ b₂ b₃ : UInt8}

/-- A lead octet and the octets that complete its sequence write a character. -/
theorem reads_of_completes {missing low high bits : Nat} {bs : List UInt8}
    (hb : lead b.toNat = .sequence (missing + 1) low high bits)
    (h : Completes (missing + 1) low high bits bs c.toNat) : Reads (b :: bs) c := by
  have hreads := Reads.sequence hb h
  rwa [Char.ofNat_toNat] at hreads

/-- The last octet of a sequence completes it. -/
theorem completes_last {low high bits n : Nat} (hb : low ≤ b.toNat ∧ b.toNat ≤ high)
    (hn : 64 * bits + b.toNat % 64 = n) : Completes 1 low high bits [b] n :=
  hn ▸ .last hb

theorem reads_two (h : 0x7F < c.toNat) (h' : c.toNat ≤ 0x7FF)
    (hb : b.toNat = c.toNat / 64 + 0xC0) (hb₁ : b₁.toNat = c.toNat % 64 + 0x80) :
    Reads [b, b₁] c := by
  have hlead := lead_two (n := b.toNat) (by omega) (by omega)
  exact reads_of_completes hlead (completes_last (by omega) (by omega))

theorem reads_three (h : 0x7FF < c.toNat) (h' : c.toNat ≤ 0xFFFF)
    (hb : b.toNat = c.toNat / 4096 + 0xE0) (hb₁ : b₁.toNat = c.toNat / 64 % 64 + 0x80)
    (hb₂ : b₂.toNat = c.toNat % 64 + 0x80) : Reads [b, b₁, b₂] c := by
  have hvalid := toNat_valid c
  have hlead := lead_three (n := b.toNat) (by omega) (by omega)
  refine reads_of_completes hlead (.more ⟨?_, ?_⟩ (completes_last (by omega) (by omega)))
  · split <;> omega
  · split <;> omega

theorem reads_four (h : 0xFFFF < c.toNat) (hb : b.toNat = c.toNat / 262144 + 0xF0)
    (hb₁ : b₁.toNat = c.toNat / 4096 % 64 + 0x80) (hb₂ : b₂.toNat = c.toNat / 64 % 64 + 0x80)
    (hb₃ : b₃.toNat = c.toNat % 64 + 0x80) : Reads [b, b₁, b₂, b₃] c := by
  have hvalid := toNat_valid c
  have hlead := lead_four (n := b.toNat) (by omega) (by omega)
  refine reads_of_completes hlead
    (.more ⟨?_, ?_⟩ (.more (by omega) (completes_last (by omega) (by omega))))
  · split <;> omega
  · split <;> omega

end Reading

/-- A character is read from its encoding. -/
theorem reads_utf8EncodeChar (c : Char) : Reads (String.utf8EncodeChar c) c := by
  have hvalid := toNat_valid c
  have hoctet : ∀ {n : Nat}, n < 256 → (UInt8.ofNat n).toNat = n := UInt8.toNat_ofNat_of_lt
  rcases Nat.lt_or_ge 0x7F c.toNat with h₁ | h₁
  · rcases Nat.lt_or_ge 0x7FF c.toNat with h₂ | h₂
    · rcases Nat.lt_or_ge 0xFFFF c.toNat with h₃ | h₃
      · rw [utf8EncodeChar_four h₃]
        exact reads_four h₃ (hoctet (by omega)) (hoctet (by omega)) (hoctet (by omega))
          (hoctet (by omega))
      · rw [utf8EncodeChar_three h₂ h₃]
        exact reads_three h₂ h₃ (hoctet (by omega)) (hoctet (by omega)) (hoctet (by omega))
    · rw [utf8EncodeChar_two h₁ h₂]
      exact reads_two h₁ h₂ (hoctet (by omega)) (hoctet (by omega))
  · have hb : (UInt8.ofNat c.toNat).toNat = c.toNat := hoctet (by omega)
    have hreads := Reads.single (b := UInt8.ofNat c.toNat) (lead_of_lt (by omega))
    rw [utf8EncodeChar_one h₁]
    rwa [hb, Char.ofNat_toNat] at hreads

/-- A sequence is read as a character exactly when it encodes it. -/
theorem reads_iff (octets : List UInt8) (c : Char) :
    Reads octets c ↔ octets = String.utf8EncodeChar c := by
  constructor
  · exact eq_utf8EncodeChar_of_reads
  · rintro rfl
    exact reads_utf8EncodeChar c

/-! ## Texts -/

/-- From any position, octets are decoded exactly when they encode a text, and then to it. -/
theorem decodeFrom_eq_ok_iff (position : Nat) (bs : List UInt8) (cs : List Char) :
    decodeFrom position none bs = .ok cs ↔ bs = cs.flatMap String.utf8EncodeChar := by
  -- a sequence is taken off at a time, so the induction is on how many octets are left
  induction hlength : bs.length using Nat.strongRecOn generalizing position bs cs with
  | ind length ih =>
      have hrest : ∀ position {octets rest : List UInt8} {c : Char} {cs' : List Char},
          Reads octets c → bs = octets ++ rest →
          (decodeFrom position none rest = .ok cs' ↔ rest = cs'.flatMap String.utf8EncodeChar) := by
        intro position octets rest c cs' hreads hbs
        have hpositive := hreads.length_pos
        have hsplit := congrArg List.length hbs
        rw [hlength, List.length_append] at hsplit
        exact ih rest.length (by omega) position rest cs' rfl
      cases bs with
      | nil =>
          have hempty : ∀ c, String.utf8EncodeChar c ≠ [] := fun c =>
            List.ne_nil_of_length_pos (reads_utf8EncodeChar c).length_pos
          cases cs with
          | nil => simp [decodeFrom]
          | cons c cs => simp [decodeFrom, hempty]
      | cons b bs =>
          rw [decodeFrom_cons_iff]
          constructor
          · rintro ⟨octets, c, rest, cs', hreads, hbs, hdecoded, rfl⟩
            rw [hbs, (reads_iff octets c).mp hreads, (hrest _ hreads hbs).mp hdecoded,
              List.flatMap_cons]
          · intro h
            cases cs with
            | nil => cases h
            | cons c cs =>
                rw [List.flatMap_cons] at h
                have hreads := reads_utf8EncodeChar c
                exact ⟨_, c, _, cs, hreads, h, (hrest _ hreads h).mpr rfl, rfl⟩

/-- Decoding undoes encoding, and nothing but the encoding of a text is decoded. -/
theorem decode_eq_ok_iff (bs : List UInt8) (cs : List Char) :
    decode bs = .ok cs ↔ bs = cs.flatMap String.utf8EncodeChar :=
  decodeFrom_eq_ok_iff 0 bs cs

end SingleFile.Text.Utf8
