import LabelPress.Json.Printer
import LabelPress.Proofs.Json.Reading
import LabelPress.Proofs.Text.Decimal

/-! Writing values. What is written for a value, compactly or over several lines, spells a tree with
that value: printed texts are read back. -/
namespace LabelPress.Json

open Text

def Digits.ofNat (n : Nat) : Digits where
  chars := Nat.toDigits 10 n
  nonempty := Nat.toDigits_ne_nil
  areDigits _ h := isDigit_of_mem_toDigits h

namespace Literal

def ofInt (n : Int) : Literal where
  negative := n < 0
  whole := Digits.ofNat n.natAbs
  fraction := none
  exponent := none
  noLeadingZero := toDigits_leadingZero n.natAbs

theorem chars_ofInt (n : Int) : (ofInt n).chars = (toString n).toList := by
  unfold chars magnitudeChars fractionChars exponentChars
  cases n with
  | ofNat n =>
    simp [ofInt, Digits.ofNat, Int.toString_eq_repr, Int.repr]
  | negSucc n =>
    simp [ofInt, Digits.ofNat, Int.toString_eq_repr, Int.repr]

theorem extend_eq {n : Nat} {ds : List Char} (h : digitsValue n ds ≤ Number.maxSignificand) :
    Number.extend n ds = (digitsValue n ds, ds.length) := by
  induction ds generalizing n with
  | nil => rfl
  | cons c cs ih =>
    have hnext := le_digitsValue (10 * n + digitValue c) cs
    have hrest := ih (n := 10 * n + digitValue c) h
    have hfits : 10 * n + digitValue c ≤ Number.maxSignificand := Nat.le_trans hnext h
    rw [Number.extend, if_pos hfits, hrest]
    rfl

theorem read_ofInt {n : Int} (hlow : -0x8000000000000000 ≤ n)
    (hhigh : n ≤ 0xFFFFFFFFFFFFFFFF) : (ofInt n).read = .ok (.integer n) := by
  have hvalue : digitsValue 0 (Nat.toDigits 10 n.natAbs) ≤ Number.maxSignificand := by
    rw [digitsValue_toDigits]
    unfold Number.maxSignificand
    omega
  unfold read
  simp only [ofInt, Digits.ofNat, extend_eq hvalue, digitsValue_toDigits, Nat.sub_self]
  unfold Number.ofSignificand
  by_cases hn : n < 0
  · have hsmall : ¬ (n.natAbs = 0 ∨ 0x8000000000000000 < n.natAbs) := by omega
    have hnat : -(n.natAbs : Int) = n := by omega
    simp only [hn, decide_true, Option.isNone_none, and_self, if_true, if_neg hsmall, hnat]
  · have hnat : (n.natAbs : Int) = n := by omega
    simp [hn, hnat]

end Literal

theorem hexValue4?_small (n : Nat) (h : n < 32) :
    hexValue4? '0' '0' (Nat.digitChar (n / 16)) (Nat.digitChar (n % 16)) = some n := by
  have hall : ∀ m < 32,
      hexValue4? '0' '0' (Nat.digitChar (m / 16)) (Nat.digitChar (m % 16)) = some m := by decide
  exact hall n h

theorem toNat_lt_of_control {c : Char} (h : c < ' ') : c.toNat < 32 := h

theorem not_surrogate_of_control {c : Char} (h : c < ' ') :
    isSecondSurrogate c.toNat = false ∧ isFirstSurrogate c.toNat = false := by
  have hlt := toNat_lt_of_control h
  constructor
  · simp [isSecondSurrogate]
    omega
  · simp [isFirstSurrogate]
    omega

namespace Piece

def ofChar (c : Char) : Piece :=
  if hq : c = '"' then .letter '"' '"' rfl
  else if hb : c = '\\' then .letter '\\' '\\' rfl
  else if c = '\x08' then .letter 'b' '\x08' rfl
  else if c = '\x0c' then .letter 'f' '\x0c' rfl
  else if c = '\n' then .letter 'n' '\n' rfl
  else if c = '\r' then .letter 'r' '\r' rfl
  else if c = '\t' then .letter 't' '\t' rfl
  else if h : c < ' ' then
    .code '0' '0' (Nat.digitChar (c.toNat / 16)) (Nat.digitChar (c.toNat % 16)) c.toNat
      (hexValue4?_small c.toNat (toNat_lt_of_control h))
  else .plain c ⟨hq, hb, h⟩

theorem chars_ofChar (c : Char) : (ofChar c).chars = escaped c := by
  unfold ofChar
  simp only [apply_ite chars, apply_dite chars]
  rfl

theorem ofChar_cases (c : Char) :
    (∃ letter h, ofChar c = .letter letter c h) ∨
      (c < ' ' ∧ ∃ h, ofChar c = .code '0' '0' (Nat.digitChar (c.toNat / 16))
        (Nat.digitChar (c.toNat % 16)) c.toNat h) ∨
      ∃ h, ofChar c = .plain c h := by
  by_cases hletter : c ∈ ['"', '\\', '\x08', '\x0c', '\n', '\r', '\t']
  · simp only [List.mem_cons, List.not_mem_nil, or_false] at hletter
    rcases hletter with rfl | rfl | rfl | rfl | rfl | rfl | rfl <;> exact .inl ⟨_, _, rfl⟩
  · simp only [List.mem_cons, List.not_mem_nil, or_false, not_or] at hletter
    obtain ⟨hq, hb, h8, hc, hn, hr, ht⟩ := hletter
    unfold ofChar
    rw [dif_neg hq, dif_neg hb, if_neg h8, if_neg hc, if_neg hn, if_neg hr, if_neg ht]
    by_cases h : c < ' '
    · exact .inr (.inl ⟨h, hexValue4?_small c.toNat (toNat_lt_of_control h), dif_pos h⟩)
    · exact .inr (.inr ⟨⟨hq, hb, h⟩, dif_neg h⟩)

end Piece

namespace Pieces

def ofString (s : String) : Pieces := s.toList.map Piece.ofChar

theorem meant?_ofChar_cons (c : Char) (ps : Pieces) :
    meant? (Piece.ofChar c :: ps) = (meant? ps).map (c :: ·) := by
  obtain ⟨letter, hletter, heq⟩ | ⟨hcontrol, hvalue, heq⟩ | ⟨hplain, heq⟩ := Piece.ofChar_cases c
  · rw [heq, meant?]
  · obtain ⟨hsecond, hfirst⟩ := not_surrogate_of_control hcontrol
    rw [heq]
    conv => lhs; unfold meant?
    rw [hsecond, hfirst, Char.ofNat_toNat]
    rfl
  · rw [heq, meant?]

theorem text?_ofString (s : String) : (ofString s).text? = some s := by
  have hmeant : (ofString s).meant? = some s.toList := by
    unfold ofString
    induction s.toList with
    | nil => rfl
    | cons c cs ih => rw [List.map_cons, meant?_ofChar_cons, ih]; rfl
  unfold text?
  rw [hmeant]
  exact congrArg some s.ofList_toList

theorem quoted_ofString (s : String) : (ofString s).quoted = quotedText s := by
  unfold quoted quotedText chars ofString
  rw [List.flatMap_map]
  simp only [Piece.chars_ofChar]

end Pieces

namespace Value

/-- All numbers are integers that are read as such. -/
inductive Whole : Value → Prop
  | null : Whole .null
  | boolean (b : Bool) : Whole (.boolean b)
  | integer {n : Int} : -0x8000000000000000 ≤ n → n ≤ 0xFFFFFFFFFFFFFFFF → Whole (.integer n)
  | string (s : String) : Whole (.string s)
  | list {vs : List Value} : (∀ v ∈ vs, Whole v) → Whole (.list vs)
  | object {ms : List (String × Value)} : (∀ m ∈ ms, Whole m.2) → Whole (.object ms)

mutual

def tree : Value → Tree
  | .null => .null
  | .boolean b => .boolean b
  | .number (.integer n) => .number (.ofInt n)
  | .number (.real _) => .null
  | .string s => .string (.ofString s)
  | .list vs => .list (itemTrees vs)
  | .object ms => .object (memberTrees ms)

def itemTrees : List Value → List Tree
  | [] => []
  | v :: vs => v.tree :: itemTrees vs

def memberTrees : List (String × Value) → List (Pieces × Tree)
  | [] => []
  | (k, v) :: ms => (.ofString k, v.tree) :: memberTrees ms

end

theorem itemTrees_eq (vs : List Value) : itemTrees vs = vs.map tree := by
  induction vs with
  | nil => rfl
  | cons v vs ih => rw [itemTrees, ih, List.map_cons]

def memberTree (m : String × Value) : Pieces × Tree := (.ofString m.1, m.2.tree)

theorem memberTrees_eq (ms : List (String × Value)) : memberTrees ms = ms.map memberTree := by
  induction ms with
  | nil => rfl
  | cons m ms ih => rw [memberTrees, ih, List.map_cons, memberTree]

theorem named?_memberTrees (ms : List (String × Value)) :
    Tree.named? (memberTrees ms) = some (ms.map fun m => (m.1, m.2.tree)) := by
  unfold Tree.named?
  induction ms with
  | nil => rfl
  | cons m ms ih =>
    rw [memberTrees, List.mapM_cons, ih, Pieces.text?_ofString]
    rfl

theorem blanks_newline (indent : Nat) : Blanks (newline indent) :=
  Blanks.cons rfl (Blanks.replicate _)

theorem after_prettyItems {indent : Nat} (vs : List Value) {b : List Char} (hb : Blanks b) :
    Joined.After ']' (vs.map (prettyChars indent)) (prettyItems indent vs ++ (b ++ [']'])) := by
  induction vs with
  | nil => exact .closed hb
  | cons v vs ih =>
    rw [prettyItems, List.map_cons]
    have h := @Joined.After.comma _ [] _ (v.prettyChars indent) _ _ Blanks.nil
      (blanks_newline indent) ih
    simpa using h

theorem after_prettyMembers {indent : Nat} (ms : List (String × Value)) {b : List Char}
    (hb : Blanks b) :
    Joined.After '}' (ms.map fun m => quotedText m.1 ++ ':' :: ' ' :: m.2.prettyChars indent)
      (prettyMembers indent ms ++ (b ++ ['}'])) := by
  induction ms with
  | nil => exact .closed hb
  | cons m ms ih =>
    rw [prettyMembers, List.map_cons]
    have h := @Joined.After.comma _ [] _ (quotedText m.1 ++ ':' :: ' ' :: m.2.prettyChars indent)
      _ _ Blanks.nil (blanks_newline indent) ih
    simpa using h

theorem Whole.spells_pretty {v : Value} (h : Whole v) (indent : Nat) :
    v.tree.Spells (v.prettyChars indent) := by
  induction h generalizing indent with
  | null => rfl
  | boolean b => cases b <;> rfl
  | @integer n _ _ => exact (Literal.chars_ofInt n).symm
  | string s => exact (Pieces.quoted_ofString s).symm
  | @list vs _ ih =>
    rw [tree, itemTrees_eq, Tree.Spells]
    simp only [Tree.spellItems_iff]
    refine ⟨vs.map (prettyChars (indent + 1)), ?_⟩
    have hitems : List.Forall₂ Tree.Spells (vs.map tree) (vs.map (prettyChars (indent + 1))) := by
      rw [List.forall₂_map_left_iff, List.forall₂_map_right_iff, List.forall₂_same]
      exact fun v hv => ih v hv (indent + 1)
    cases vs with
    | nil => exact ⟨[']'], hitems, .empty Blanks.nil, rfl⟩
    | cons v vs =>
      refine ⟨_, hitems, .items (blanks_newline (indent + 1))
        (after_prettyItems vs (blanks_newline indent)), ?_⟩
      rw [prettyChars]
      simp
  | @object ms _ ih =>
    rw [tree, memberTrees_eq, Tree.Spells]
    simp only [Tree.spellMembers_iff]
    refine ⟨ms.map fun m => quotedText m.1 ++ ':' :: ' ' :: m.2.prettyChars (indent + 1), ?_⟩
    have hitems : List.Forall₂ Tree.SpellsMember (ms.map memberTree)
        (ms.map fun m => quotedText m.1 ++ ':' :: ' ' :: m.2.prettyChars (indent + 1)) := by
      rw [List.forall₂_map_left_iff, List.forall₂_map_right_iff, List.forall₂_same]
      intro m hm
      refine ⟨[], [' '], m.2.prettyChars (indent + 1), Blanks.nil, Blanks.cons rfl Blanks.nil,
        ih m hm (indent + 1), ?_⟩
      rw [memberTree, Pieces.quoted_ofString]
      simp
    cases ms with
    | nil => exact ⟨['}'], hitems, .empty Blanks.nil, rfl⟩
    | cons m ms =>
      refine ⟨_, hitems, .items (blanks_newline (indent + 1))
        (after_prettyMembers ms (blanks_newline indent)), ?_⟩
      rw [prettyChars]
      simp

theorem after_compactItems (v : Value) (vs : List Value) :
    ∃ s, Joined.After ']' (vs.map compactChars) s ∧
      compactItems (v :: vs) ++ [']'] = v.compactChars ++ s := by
  induction vs generalizing v with
  | nil => exact ⟨[']'], .closed (b := []) Blanks.nil, by rw [compactItems]⟩
  | cons w vs ih =>
    obtain ⟨s, hs, heq⟩ := ih w
    refine ⟨_, .comma (b := []) Blanks.nil Blanks.nil hs, ?_⟩
    rw [compactItems, List.append_assoc, List.cons_append, heq]
    · simp
    · exact List.cons_ne_nil w vs

theorem after_compactMembers (m : String × Value) (ms : List (String × Value)) :
    ∃ s, Joined.After '}' (ms.map fun m => quotedText m.1 ++ ':' :: m.2.compactChars) s ∧
      compactMembers (m :: ms) ++ ['}'] = quotedText m.1 ++ ':' :: m.2.compactChars ++ s := by
  induction ms generalizing m with
  | nil => exact ⟨['}'], .closed (b := []) Blanks.nil, by rw [compactMembers]⟩
  | cons n ms ih =>
    obtain ⟨s, hs, heq⟩ := ih n
    refine ⟨_, .comma (b := []) Blanks.nil Blanks.nil hs, ?_⟩
    rw [compactMembers, List.append_assoc, List.cons_append, heq]
    · simp
    · exact List.cons_ne_nil n ms

theorem Whole.spells_compact {v : Value} (h : Whole v) : v.tree.Spells v.compactChars := by
  induction h with
  | null => rfl
  | boolean b => cases b <;> rfl
  | @integer n _ _ => exact (Literal.chars_ofInt n).symm
  | string s => exact (Pieces.quoted_ofString s).symm
  | @list vs _ ih =>
    rw [tree, itemTrees_eq, Tree.Spells]
    simp only [Tree.spellItems_iff]
    refine ⟨vs.map compactChars, ?_⟩
    have hitems : List.Forall₂ Tree.Spells (vs.map tree) (vs.map compactChars) := by
      rw [List.forall₂_map_left_iff, List.forall₂_map_right_iff, List.forall₂_same]
      exact ih
    cases vs with
    | nil => exact ⟨[']'], hitems, .empty Blanks.nil, rfl⟩
    | cons v vs =>
      obtain ⟨s, hs, heq⟩ := after_compactItems v vs
      refine ⟨_, hitems, .items (b := []) Blanks.nil hs, ?_⟩
      rw [compactChars, List.cons_append, heq]
      simp
  | @object ms _ ih =>
    rw [tree, memberTrees_eq, Tree.Spells]
    simp only [Tree.spellMembers_iff]
    refine ⟨ms.map fun m => quotedText m.1 ++ ':' :: m.2.compactChars, ?_⟩
    have hitems : List.Forall₂ Tree.SpellsMember (ms.map memberTree)
        (ms.map fun m => quotedText m.1 ++ ':' :: m.2.compactChars) := by
      rw [List.forall₂_map_left_iff, List.forall₂_map_right_iff, List.forall₂_same]
      intro m hm
      refine ⟨[], [], m.2.compactChars, Blanks.nil, Blanks.nil, ih m hm, ?_⟩
      rw [memberTree, Pieces.quoted_ofString]
      simp
    cases ms with
    | nil => exact ⟨['}'], hitems, .empty Blanks.nil, rfl⟩
    | cons m ms =>
      obtain ⟨s, hs, heq⟩ := after_compactMembers m ms
      refine ⟨_, hitems, .items (b := []) Blanks.nil hs, ?_⟩
      rw [compactChars, List.cons_append, heq]
      simp

theorem Whole.spelledBy_pretty {v : Value} (h : Whole v) : v.tree.SpelledBy v.pretty :=
  ⟨[], v.prettyChars 0, [], Blanks.nil, h.spells_pretty 0, Blanks.nil, by simp [pretty]⟩

theorem Whole.spelledBy_compact {v : Value} (h : Whole v) : v.tree.SpelledBy v.compact :=
  ⟨[], v.compactChars, [], Blanks.nil, h.spells_compact, Blanks.nil, by simp [compact]⟩

end Value

end LabelPress.Json
