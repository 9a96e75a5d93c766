import Mathlib.Data.List.Basic

/-!
# Text detection

`IsUtf8Text` reads a file byte by byte.  It accepts the UTF-8 encodings of the texts without
NUL, and nothing else.
-/

namespace VexDB.VexFs

open List

/-- The checks after a lead byte. -/
def sequenceOk (lead : UInt8) (minimum : Nat) (trailing : List UInt8) : Bool :=
  let codepoint := trailing.foldl (fun codepoint next =>
    codepoint <<< 6 ||| (next &&& 0x3f).toNat) lead.toNat
  trailing.all (· &&& 0xc0 = 0x80) && !(codepoint < minimum || codepoint > 0x10ffff ||
    0xd800 <= codepoint && codepoint <= 0xdfff)

def isUtf8Text : List UInt8 -> Bool
  | [] => true
  | first :: rest =>
    if first = 0 then false
    else if first < 0x80 then isUtf8Text rest
    else if first &&& 0xe0 = 0xc0 then
      match rest with
      | a :: rest => sequenceOk (first &&& 0x1f) 0x80 [a] && isUtf8Text rest
      | _ => false
    else if first &&& 0xf0 = 0xe0 then
      match rest with
      | a :: b :: rest => sequenceOk (first &&& 0x0f) 0x800 [a, b] && isUtf8Text rest
      | _ => false
    else if first &&& 0xf8 = 0xf0 then
      match rest with
      | a :: b :: c :: rest => sequenceOk (first &&& 0x07) 0x10000 [a, b, c] && isUtf8Text rest
      | _ => false
    else false

/-- The masks of the bytes as quotients and remainders. -/
theorem masks (byte : UInt8) : (byte = 0 ↔ byte.toNat = 0) ∧ (byte < 0x80 ↔ byte.toNat < 128) ∧
    (byte &&& 0xe0 = 0xc0 ↔ byte.toNat / 32 = 6) ∧ (byte &&& 0xf0 = 0xe0 ↔ byte.toNat / 16 = 14) ∧
    (byte &&& 0xf8 = 0xf0 ↔ byte.toNat / 8 = 30) ∧ (byte &&& 0xc0 = 0x80 ↔ byte.toNat / 64 = 2) ∧
    (byte &&& 0x1f).toNat = byte.toNat % 32 ∧ (byte &&& 0x0f).toNat = byte.toNat % 16 ∧
    (byte &&& 0x07).toNat = byte.toNat % 8 ∧ (byte &&& 0x3f).toNat = byte.toNat % 64 := by
  obtain ⟨⟨byte⟩⟩ := byte
  revert byte
  decide +kernel

theorem sequenceOk_iff {lead : UInt8} {minimum : Nat} {trailing : List UInt8} :
    sequenceOk lead minimum trailing = true ↔ (∀ next ∈ trailing, next.toNat / 64 = 2) ∧
      let code := trailing.foldl (fun code next => code * 64 + next.toNat % 64) lead.toNat
      minimum <= code ∧ code.isValidChar := by
  have added (code next : Nat) : code <<< 6 ||| next % 64 = code * 64 + next % 64 := by
    rw [<- Nat.shiftLeft_add_eq_or_of_lt (Nat.mod_lt _ (by decide)), Nat.shiftLeft_eq]
  simp only [sequenceOk, added, masks, Bool.and_eq_true, all_eq_true, decide_eq_true_eq,
    Bool.not_eq_true', Bool.or_eq_false_iff, decide_eq_false_iff_not, Bool.and_eq_false_iff]
  unfold Nat.isValidChar
  exact and_congr_right fun _ => by omega

theorem isUtf8Text_encode (visible : char.val.toNat ≠ 0) (rest : List UInt8) :
    isUtf8Text (String.utf8EncodeChar char ++ rest) = isUtf8Text rest := by
  have valid := char.valid
  rw [UInt32.isValidChar, Nat.isValidChar] at valid
  unfold String.utf8EncodeChar
  dsimp only
  generalize char.val.toNat = code at *
  split_ifs <;> rw [cons_append, isUtf8Text.eq_def] <;>
    simp only [cons_append, nil_append, masks, UInt8.toNat_ofNat']
  · rw [if_neg (by omega), if_pos (by omega)]
  · rw [if_neg (by omega), if_neg (by omega), if_pos (by omega), sequenceOk_iff.2, Bool.true_and]
    simp [masks, -UInt8.toNat_and]
    omega
  · rw [if_neg (by omega), if_neg (by omega), if_neg (by omega), if_pos (by omega),
      sequenceOk_iff.2, Bool.true_and]
    simp [masks, -UInt8.toNat_and]
    omega
  · rw [if_neg (by omega), if_neg (by omega), if_neg (by omega), if_neg (by omega),
      if_pos (by omega), sequenceOk_iff.2, Bool.true_and]
    simp [masks, -UInt8.toNat_and]
    omega

/-- The bytes of a text without NUL. -/
def IsText (content : List UInt8) : Prop :=
  ∃ chars : List Char, (∀ char ∈ chars, char.val.toNat ≠ 0) ∧
    content = chars.flatMap String.utf8EncodeChar

theorem IsText.cons (bytes : List UInt8) (text : IsText rest)
    (valid : code.isValidChar) (visible : code ≠ 0)
    (encoded : ∀ char : Char, char.val.toNat = code -> String.utf8EncodeChar char = bytes) :
    IsText (bytes ++ rest) := by
  obtain ⟨chars, visibles, rfl⟩ := text
  refine ⟨.ofNatAux code valid :: chars, forall_mem_cons.2 ⟨visible, visibles⟩, ?_⟩
  rw [flatMap_cons, encoded _ rfl]

theorem ofNat_eq_iff : UInt8.ofNat value = byte ↔ value % 256 = byte.toNat := by
  rw [<- UInt8.toNat_inj, UInt8.toNat_ofNat']

theorem isText_of {content : List UInt8} (accepted : isUtf8Text content) : IsText content := by
  fun_induction isUtf8Text content with
  | case1 => exact ⟨[], by simp, rfl⟩
  | case3 first rest visible ascii ih =>
    simp only [masks] at visible ascii
    refine .cons [first] (ih accepted) (.inl (by omega)) visible fun char same => ?_
    unfold String.utf8EncodeChar
    rw [same, if_pos (by omega), UInt8.ofNat_toNat]
  | case4 first _ _ lead a rest ih =>
    simp only [Bool.and_eq_true, sequenceOk_iff, masks, forall_mem_cons, foldl] at *
    obtain ⟨⟨tails, long, valid⟩, text⟩ := accepted
    refine .cons [first, a] (ih text) valid (by omega) fun char same => ?_
    unfold String.utf8EncodeChar
    rw [same, if_neg (by omega), if_pos (by omega)]
    simp only [cons.injEq, and_true, ofNat_eq_iff]
    omega
  | case6 first _ _ _ lead a b rest ih =>
    simp only [Bool.and_eq_true, sequenceOk_iff, masks, forall_mem_cons, foldl] at *
    obtain ⟨⟨tails, long, valid⟩, text⟩ := accepted
    refine .cons [first, a, b] (ih text) valid (by omega) fun char same => ?_
    unfold String.utf8EncodeChar
    rw [same, if_neg (by omega), if_neg (by omega), if_pos (by omega)]
    simp only [cons.injEq, and_true, ofNat_eq_iff]
    omega
  | case8 first _ _ _ _ lead a b c rest ih =>
    simp only [Bool.and_eq_true, sequenceOk_iff, masks, forall_mem_cons, foldl] at *
    obtain ⟨⟨tails, long, valid⟩, text⟩ := accepted
    refine .cons [first, a, b, c] (ih text) valid (by omega) fun char same => ?_
    unfold String.utf8EncodeChar
    rw [Nat.isValidChar] at valid
    rw [same, if_neg (by omega), if_neg (by omega), if_neg (by omega)]
    simp only [cons.injEq, and_true, ofNat_eq_iff]
    omega
  | _ => cases accepted

theorem isUtf8Text_iff (content : List UInt8) : isUtf8Text content = true ↔ IsText content := by
  refine ⟨isText_of, ?_⟩
  rintro ⟨chars, visible, rfl⟩
  induction chars with
  | nil => rfl
  | cons char chars ih =>
    rw [forall_mem_cons] at visible
    rw [flatMap_cons, isUtf8Text_encode visible.1, ih visible.2]

end VexDB.VexFs
