import LabelPress.Proofs.Json.Printing

/-! Texts that break off. A reader of a printed text that ends too early asks for more, wherever the
cut is. Only a cut within an integer goes unnoticed at first: what is left is a smaller integer, and
the reader has used up the text. -/
namespace LabelPress.Json

open Reader hiding true false null

variable {α β σ : Type}

def BreaksOff (q s : List Char) : Prop := ∃ r, r ≠ [] ∧ s = q ++ r

namespace BreaksOff

variable {q s t : List Char} {c : Char}

theorem not_nil : ¬ BreaksOff q [] := by
  rintro ⟨r, hr, h⟩
  exact hr (List.append_eq_nil_iff.mp h.symm).2

theorem cons (h : BreaksOff q s) (c : Char) : BreaksOff (c :: q) (c :: s) := by
  obtain ⟨r, hr, rfl⟩ := h
  exact ⟨r, hr, rfl⟩

theorem append_cases (h : BreaksOff q (s ++ t)) :
    BreaksOff q s ∨ ∃ q', q = s ++ q' ∧ BreaksOff q' t := by
  obtain ⟨r, hr, heq⟩ := h
  rcases List.append_eq_append_iff.mp heq with ⟨u, rfl, rfl⟩ | ⟨u, rfl, rfl⟩
  · exact .inr ⟨u, rfl, r, hr, rfl⟩
  · by_cases hu : u = []
    · subst hu
      exact .inr ⟨[], by simp, _, hr, by simp⟩
    · exact .inl ⟨u, hu, rfl⟩

theorem cons_cases (h : BreaksOff q (c :: s)) : q = [] ∨ ∃ q', q = c :: q' ∧ BreaksOff q' s := by
  obtain ⟨r, hr, heq⟩ := h
  cases q with
  | nil => exact .inl rfl
  | cons d q =>
    obtain ⟨rfl, rfl⟩ := List.cons.inj heq
    exact .inr ⟨q, rfl, r, hr, rfl⟩

theorem blanks_cases {b : List Char} (hb : Blanks b) (h : BreaksOff q (b ++ c :: s)) :
    Blanks q ∨ ∃ q', q = b ++ c :: q' ∧ BreaksOff q' s := by
  rcases h.append_cases with ⟨r, -, rfl⟩ | ⟨q', rfl, hq'⟩
  · exact .inl fun d hd => hb d (List.mem_append_left r hd)
  · rcases hq'.cons_cases with rfl | ⟨q, rfl, hq⟩
    · exact .inl (by simpa using hb)
    · exact .inr ⟨q, rfl, hq⟩

theorem blanks {b : List Char} (hb : Blanks b) (h : BreaksOff q (b ++ [c])) : Blanks q := by
  rcases h.blanks_cases hb with hq | ⟨q, -, hnil⟩
  · exact hq
  · exact absurd hnil not_nil

theorem ends (h : BreaksOff q s) (hs : Ends s) : Ends q := by
  obtain ⟨r, -, rfl⟩ := h
  cases q with
  | nil => exact Ends.nil
  | cons c q => exact hs

end BreaksOff

namespace Reader

/-- The reader fails for want of text. -/
def Starves (p : Reader α) (s : List Char) : Prop :=
  ∃ e, p.run s = .error e ∧ e.category = .cutShort

/-- The reader wants more text, or is done and leaves none. -/
def Exhausts (p : Reader α) (s : List Char) : Prop := p.Starves s ∨ ∃ a, p.run s = .ok (a, [])

variable {p : Reader α} {f : α → Reader β} {s r : List Char} {a : α}

theorem starves_fail {e : Fault} (h : e.category = .cutShort) (s : List Char) :
    (fail e : Reader α).Starves s :=
  ⟨e, rfl, h⟩

theorem run_eq_ok_iff : p.run s = .ok (a, r) ↔ p.run? s = some (a, r) := by
  unfold run?
  cases p.run s <;> simp [Except.toOption]

theorem Starves.bind (h : p.Starves s) : (p >>= f).Starves s := by
  obtain ⟨e, he, hcut⟩ := h
  exact ⟨e, by rw [run_bind, he], hcut⟩

theorem Starves.exhausts (h : p.Starves s) : p.Exhausts s := .inl h

theorem run_bind_of_run (h : p.run s = .ok (a, r)) : (p >>= f).run s = (f a).run r := by
  rw [run_bind, h]

theorem starves_bind_of_run (h : p.run s = .ok (a, r)) (hf : (f a).Starves r) :
    (p >>= f).Starves s := by
  unfold Starves
  rwa [run_bind_of_run h]

theorem exhausts_bind_of_run (h : p.run s = .ok (a, r)) (hf : (f a).Exhausts r) :
    (p >>= f).Exhausts s := by
  unfold Exhausts Starves
  rwa [run_bind_of_run h]

theorem Exhausts.bind_starves (h : p.Exhausts s) (hf : ∀ a, (f a).Starves []) :
    (p >>= f).Starves s := by
  rcases h with h | ⟨a, ha⟩
  · exact h.bind
  · exact starves_bind_of_run ha (hf a)

theorem Exhausts.map (h : p.Exhausts s) (g : α → β) : (do pure (g (← p))).Exhausts s := by
  rcases h with h | ⟨a, ha⟩
  · exact h.bind.exhausts
  · exact .inr ⟨g a, run_bind_of_run ha⟩

theorem starves_peek {f : Option Char → Reader α} (hend : (f none).Starves []) {q : List Char}
    (hq : Blanks q) : (peek >>= f).Starves q := by
  refine starves_bind_of_run (r := []) (a := none) ?_ hend
  rw [run_peek, hq.dropWhile_eq_nil]
  rfl

end Reader

theorem starves_word {w q : List Char} (h : BreaksOff q w) : (word w).Starves q := by
  induction w generalizing q with
  | nil => exact absurd h BreaksOff.not_nil
  | cons c w ih =>
    unfold word
    rcases h.cons_cases with rfl | ⟨q, rfl, hq⟩
    · exact starves_bind_of_run rfl (starves_fail rfl _)
    · refine starves_bind_of_run (run_look _) ?_
      simp only [List.head?_cons, if_true]
      exact starves_bind_of_run rfl (ih hq)

theorem utf8Size_of_hexValue? {c : Char} {i : Nat} (h : hexValue? c = some i) :
    c.utf8Size = 1 := by
  have hle : c.val ≤ 0x7f := by
    unfold hexValue? at h
    split at h
    · rename_i hc
      exact Nat.le_trans hc.2 (by decide)
    split at h
    · rename_i hc
      exact Nat.le_trans hc.2 (by decide)
    split at h
    · rename_i hc
      exact Nat.le_trans hc.2 (by decide)
    contradiction
  exact if_pos hle

theorem starves_hexEscape {q : List Char} (hlength : q.length < 4)
    (hbytes : ∀ c ∈ q, c.utf8Size = 1) : hexEscape.Starves q := by
  have hsize (n : Nat) : q.foldl (fun n c => n + c.utf8Size) n = n + q.length := by
    clear hlength
    induction q generalizing n with
    | nil => rfl
    | cons c q ih =>
      rw [List.foldl_cons, ih (fun d hd => hbytes d (List.mem_cons_of_mem c hd)),
        hbytes c List.mem_cons_self, List.length_cons]
      omega
  have hshort : (q.take 4).foldl (fun n c => n + c.utf8Size) 0 < 4 := by
    rw [List.take_of_length_le (by omega), hsize]
    omega
  refine ⟨.endInString, ?_, rfl⟩
  unfold Reader.run hexEscape
  rw [if_pos hshort]

theorem starves_escape_nil : escape.Starves [] := starves_bind_of_run rfl (starves_fail rfl _)

theorem starves_escape_code {a b c d : Char} {n : Nat} (h : hexValue4? a b c d = some n)
    {q : List Char} (hq : BreaksOff q ['u', a, b, c, d]) : escape.Starves q := by
  rcases hq.cons_cases with rfl | ⟨q, rfl, r, hr, hdigits⟩
  · exact starves_escape_nil
  have hlength : q.length < 4 := by
    have hlen := congrArg List.length hdigits
    have hpos := List.length_pos_iff.mpr hr
    simp only [List.length_append, List.length_cons, List.length_nil] at hlen
    omega
  have hbytes : ∀ x ∈ [a, b, c, d], x.utf8Size = 1 := by
    obtain ⟨i, j, k, l, hi, hj, hk, hl, -⟩ := hexValue4?_eq_some_iff.mp h
    simp [utf8Size_of_hexValue? hi, utf8Size_of_hexValue? hj, utf8Size_of_hexValue? hk,
      utf8Size_of_hexValue? hl]
  have hshort : hexEscape.Starves q :=
    starves_hexEscape hlength fun x hx => hbytes x (hdigits ▸ List.mem_append_left r hx)
  unfold escape
  refine starves_bind_of_run (run_look _) ?_
  simp only [List.head?_cons, Pieces.simpleEscape?_u, if_true]
  exact starves_bind_of_run rfl hshort.bind

theorem ofChar_plain_or_escape (c : Char) :
    (∃ h, Piece.ofChar c = .plain c h) ∨
      ∃ e, (Piece.ofChar c).chars = '\\' :: e ∧ (∀ q, BreaksOff q e → escape.Starves q) ∧
        ∀ r, escape.run (e ++ r) = .ok (c, r) := by
  obtain ⟨letter, hletter, heq⟩ | ⟨hcontrol, hvalue, heq⟩ | ⟨hplain, heq⟩ := Piece.ofChar_cases c
  · refine .inr ⟨[letter], by rw [heq]; rfl, fun q hq => ?_, fun r => ?_⟩
    · rcases hq.cons_cases with rfl | ⟨q, -, hq⟩
      · exact starves_escape_nil
      · exact absurd hq BreaksOff.not_nil
    · exact run_eq_ok_iff.mpr (Pieces.run?_escape_letter hletter r)
  · refine .inr ⟨_, by rw [heq]; rfl, fun q hq => starves_escape_code hvalue hq, fun r => ?_⟩
    obtain ⟨hsecond, hfirst⟩ := not_surrogate_of_control hcontrol
    have hescape := Pieces.run?_escape_code hvalue r
    rw [hsecond, hfirst, Char.ofNat_toNat] at hescape
    exact run_eq_ok_iff.mpr hescape
  · exact .inl ⟨hplain, heq⟩

theorem starves_textWith (cs : List Char) {q : List Char}
    (h : BreaksOff q (Pieces.chars (cs.map Piece.ofChar) ++ ['"'])) :
    (textWith escape id).Starves q := by
  have hend : (textWith escape id).Starves [] :=
    ⟨.endInString, by unfold Reader.run; rw [textWith], rfl⟩
  induction cs generalizing q with
  | nil =>
    rcases h.cons_cases with rfl | ⟨q, -, hq⟩
    · exact hend
    · exact absurd hq BreaksOff.not_nil
  | cons c cs ih =>
    have hchars : Pieces.chars ((c :: cs).map Piece.ofChar) ++ ['"'] =
        (Piece.ofChar c).chars ++ (Pieces.chars (cs.map Piece.ofChar) ++ ['"']) := by
      simp [Pieces.chars]
    rw [hchars] at h
    obtain ⟨hplain, heq⟩ | ⟨e, heq, hcut, hescape⟩ := ofChar_plain_or_escape c
    · rw [heq] at h
      rcases h.cons_cases with rfl | ⟨q, rfl, hq⟩
      · exact hend
      unfold Starves
      rw [Pieces.run_textWith_cons, if_neg hplain.1, if_neg hplain.2.1, if_neg hplain.2.2]
      exact (ih hq).bind
    · rw [heq, List.cons_append] at h
      rcases h.cons_cases with rfl | ⟨q, rfl, hq⟩
      · exact hend
      unfold Starves
      rw [Pieces.run_textWith_cons, if_neg (by decide), if_pos rfl]
      rcases hq.append_cases with hcode | ⟨q, rfl, hrest⟩
      · exact (hcut q hcode).bind
      · exact starves_bind_of_run (hescape q) (ih hrest).bind

theorem starves_text {s : String} {q : List Char}
    (h : BreaksOff q ((Pieces.ofString s).chars ++ ['"'])) : text.Starves q :=
  (starves_textWith s.toList h).bind

/-- What is left of an integer: nothing, its sign, or an integer between it and zero. -/
theorem Literal.cases_of_breaksOff {n : Int} {q : List Char} (h : BreaksOff q (ofInt n).chars) :
    q = [] ∨ q = ['-'] ∨ ∃ m, min n 0 ≤ m ∧ m ≤ max n 0 ∧ q = (ofInt m).chars := by
  have hchars (m : Int) : (ofInt m).chars =
      if m < 0 then '-' :: Nat.toDigits 10 m.natAbs else Nat.toDigits 10 m.natAbs := by
    simp [ofInt, chars, magnitudeChars, fractionChars, exponentChars, Digits.ofNat]
  rw [hchars] at h
  by_cases hn : n < 0
  · rw [if_pos hn] at h
    rcases h.cons_cases with rfl | ⟨q, rfl, r, -, hdigits⟩
    · exact .inl rfl
    by_cases hq : q = []
    · exact .inr (.inl (by rw [hq]))
    obtain ⟨k, hk, hpos, rfl⟩ := Text.exists_toDigits_of_append hdigits hq
    refine .inr (.inr ⟨-k, by omega, by omega, ?_⟩)
    have hpos := hpos (by omega)
    rw [hchars, if_pos (by omega), Int.natAbs_neg, Int.natAbs_natCast]
  · rw [if_neg hn] at h
    obtain ⟨r, -, hdigits⟩ := h
    by_cases hq : q = []
    · exact .inl hq
    obtain ⟨k, hk, -, rfl⟩ := Text.exists_toDigits_of_append hdigits hq
    refine .inr (.inr ⟨k, by omega, by omega, ?_⟩)
    rw [hchars, if_neg (by omega), Int.natAbs_natCast]

/-- The reader needs the whole text of the tree: it wants more wherever the text breaks off. -/
structure NeedsAll (p : Reader α) (t : Tree) : Prop where
  starves {b s q : List Char} : Blanks b → t.Spells s → BreaksOff q (b ++ s) → p.Starves q

/-- Wherever the text of the tree breaks off, the reader wants more or uses up what there is. -/
structure UsesUp (p : Reader α) (t : Tree) : Prop where
  exhausts {b s q : List Char} : Blanks b → t.Spells s → BreaksOff q (b ++ s) → p.Exhausts q

structure UsesUpMember (p : Reader α) (t : Tree) : Prop where
  exhausts {b b' s q : List Char} : Blanks b → Blanks b' → t.Spells s →
    BreaksOff q (b ++ ':' :: (b' ++ s)) → p.Exhausts q

section

variable {p : Reader α} {t : Tree}

theorem Tree.Spells.isStart {c : Char} {r : List Char} (h : t.Spells (c :: r)) :
    Tree.isStart c = true := by
  obtain ⟨_, _, heq, hc⟩ := h.exists_cons
  cases heq
  exact hc

theorem UsesUp.exhausts_start (h : UsesUp p t) {c : Char} {r q : List Char}
    (hs : t.Spells (c :: r)) (hq : BreaksOff q r) : p.Exhausts (c :: q) :=
  h.exhausts (b := []) Blanks.nil hs (hq.cons c)

theorem NeedsAll.usesUp (h : NeedsAll p t) : UsesUp p t where
  exhausts hb hs hq := (h.starves hb hs hq).exhausts

theorem NeedsAll.bind (h : NeedsAll p t) (f : α → Reader β) : NeedsAll (p >>= f) t where
  starves hb hs hq := (h.starves hb hs hq).bind

theorem UsesUp.map (h : UsesUp p t) (g : α → β) : UsesUp (do pure (g (← p))) t where
  exhausts hb hs hq := (h.exhausts hb hs hq).map g

theorem UsesUpMember.map (h : UsesUpMember p t) (g : α → β) :
    UsesUpMember (do pure (g (← p))) t where
  exhausts hb hb' hs hq := (h.exhausts hb hb' hs hq).map g

theorem UsesUp.afterColon (h : UsesUp p t) : UsesUpMember (do colon; p) t where
  exhausts {b b' s q} hb hb' hs hq := by
    rcases hq.blanks_cases hb with hblank | ⟨q, rfl, hrest⟩
    · have hcolon : colon.Starves q := starves_peek (starves_fail rfl _) hblank
      exact hcolon.bind.exhausts
    · exact exhausts_bind_of_run (run_eq_ok_iff.mpr (run?_colon hb q)) (h.exhausts hb' hs hrest)

theorem NeedsAll.ofStart {f : Option Char → Reader α} (hend : (f none).Starves [])
    (h : ∀ c r q, t.Spells (c :: r) → BreaksOff q r → (f (some c)).Starves (c :: q)) :
    NeedsAll (peek >>= f) t where
  starves {b s q} hb hs hq := by
    obtain ⟨c, r, rfl, hc⟩ := hs.exists_cons
    rcases hq.blanks_cases hb with hblank | ⟨q, rfl, hrest⟩
    · exact starves_peek hend hblank
    · exact starves_bind_of_run (run_peek_start hb (Tree.isStart.not_blank hc) q) (h c r q hs hrest)

theorem UsesUp.ofStart {f : Option Char → Reader α} (hend : (f none).Starves [])
    (h : ∀ c r q, t.Spells (c :: r) → BreaksOff q r → (f (some c)).Exhausts (c :: q)) :
    UsesUp (peek >>= f) t where
  exhausts {b s q} hb hs hq := by
    obtain ⟨c, r, rfl, hc⟩ := hs.exists_cons
    rcases hq.blanks_cases hb with hblank | ⟨q, rfl, hrest⟩
    · exact (starves_peek hend hblank).exhausts
    · exact exhausts_bind_of_run (run_peek_start hb (Tree.isStart.not_blank hc) q)
        (h c r q hs hrest)

theorem UsesUp.ofInt {n : Int} (hblank : ∀ q, Blanks q → p.Starves q)
    (hsign : ∀ b, Blanks b → p.Starves (b ++ ['-']))
    (hread : ∀ m, min n 0 ≤ m → m ≤ max n 0 → ∃ a, Reads p (.number (.ofInt m)) (some a)) :
    UsesUp p (.number (.ofInt n)) where
  exhausts {b s q} hb hs hq := by
    rw [Tree.Spells] at hs
    subst hs
    rcases hq.append_cases with ⟨r, -, rfl⟩ | ⟨q, rfl, hrest⟩
    · exact (hblank q fun c hc => hb c (List.mem_append_left r hc)).exhausts
    rcases Literal.cases_of_breaksOff hrest with rfl | rfl | ⟨m, hlow, hhigh, rfl⟩
    · exact (hblank _ (by simpa using hb)).exhausts
    · exact (hsign b hb).exhausts
    · obtain ⟨a, ha⟩ := hread m hlow hhigh
      have hrun := ha.run? hb (s := (Literal.ofInt m).chars) (by rw [Tree.Spells]) Ends.nil
      rw [List.append_nil] at hrun
      exact .inr ⟨a, run_eq_ok_iff.mpr hrun⟩

end

theorem Tree.Spells.string_cases {s : String} {c : Char} {r : List Char}
    (h : (Tree.string (.ofString s)).Spells (c :: r)) :
    c = '"' ∧ r = (Pieces.ofString s).chars ++ ['"'] := by
  rw [Tree.Spells] at h
  exact List.cons.inj h

theorem needsAll_readString (expected : Expected) (s : String) :
    NeedsAll (readString expected) (.string (.ofString s)) := by
  refine NeedsAll.ofStart (starves_fail rfl _) fun c r q hs hq => ?_
  obtain ⟨rfl, rfl⟩ := hs.string_cases
  exact starves_bind_of_run rfl (starves_text hq)

theorem needsAll_readVariant [Named α] (depth : Nat) (s : String) :
    NeedsAll (readVariant α depth) (.string (.ofString s)) := by
  refine NeedsAll.ofStart (starves_fail rfl _) fun c r q hs hq => ?_
  obtain ⟨rfl, rfl⟩ := hs.string_cases
  exact starves_bind_of_run rfl (starves_text hq).bind

theorem starves_number_nil (negative : Bool) : (number negative).Starves [] :=
  starves_bind_of_run rfl (starves_fail rfl _)

section

variable (onList onObject : Reader Value)

theorem needsAll_valueWith_word {t : Tree} (ht : t = .null ∨ ∃ b, t = .boolean b) :
    NeedsAll (valueWith onList onObject) t := by
  refine NeedsAll.ofStart (starves_fail rfl _) fun c r q hs hq => ?_
  rcases ht with rfl | ⟨b | b, rfl⟩ <;>
  · rw [Tree.Spells] at hs
    obtain ⟨rfl, rfl⟩ := List.cons.inj hs
    exact starves_bind_of_run rfl (starves_word hq).bind

theorem needsAll_valueWith_string (s : String) :
    NeedsAll (valueWith onList onObject) (.string (.ofString s)) := by
  refine NeedsAll.ofStart (starves_fail rfl _) fun c r q hs hq => ?_
  obtain ⟨rfl, rfl⟩ := hs.string_cases
  exact starves_bind_of_run rfl (starves_text hq).bind

theorem usesUp_valueWith_integer {n : Int} (hlow : -0x8000000000000000 ≤ n)
    (hhigh : n ≤ 0xFFFFFFFFFFFFFFFF) :
    UsesUp (valueWith onList onObject) (.number (.ofInt n)) := by
  refine UsesUp.ofInt (fun q hq => ?_) (fun b hb => ?_) fun m hmin hmax => ?_
  · exact starves_peek (starves_fail rfl _) hq
  · refine starves_bind_of_run (run_peek_start hb rfl []) ?_
    exact starves_bind_of_run rfl (starves_number_nil true).bind
  · have hread := reads_valueWith_number onList onObject (.ofInt m)
    rw [Tree.value?, Literal.read_ofInt (by omega) (by omega)] at hread
    exact ⟨_, hread⟩

end

theorem usesUp_value {v : Value} (hv : v.Whole) (hscalar : v.tree.IsScalar) (depth : Nat) :
    UsesUp (value depth) v.tree := by
  have husesUp (onList onObject : Reader Value) :
      UsesUp (valueWith onList onObject) v.tree := by
    cases hv with
    | null => exact (needsAll_valueWith_word _ _ (.inl rfl)).usesUp
    | boolean b => exact (needsAll_valueWith_word _ _ (.inr ⟨b, rfl⟩)).usesUp
    | integer hlow hhigh => exact usesUp_valueWith_integer _ _ hlow hhigh
    | string s => exact (needsAll_valueWith_string _ _ s).usesUp
    | list _ => exact hscalar.elim
    | object _ => exact hscalar.elim
  cases depth <;> (rw [value]; exact husesUp _ _)

theorem isSome_foldlM_cons {f : σ → β → Option σ} {a : σ} {x : β} {xs : List β}
    (h : ((x :: xs).foldlM f a).isSome) : ∃ c, f a x = some c ∧ (xs.foldlM f c).isSome := by
  rw [List.foldlM_cons] at h
  cases hx : f a x with
  | none =>
    rw [hx] at h
    contradiction
  | some c =>
    rw [hx] at h
    exact ⟨c, rfl, h⟩

section

variable {close : Char} {atEnd other : Fault} {body : σ → Reader σ}

theorem run_afterCommas_blanks {q : List Char} (hq : Blanks q) (a : σ) :
    (afterCommas close atEnd other body a).run q = .error atEnd := by
  have hseparator : separator close atEnd other q = .error atEnd := by
    unfold separator
    split
    · rfl
    · rename_i hcons
      rw [hq.dropWhile_eq_nil] at hcons
      contradiction
  unfold Reader.run
  rw [afterCommas, hseparator]

theorem starves_afterCommas (hclose : IsClose close) (hend : atEnd.category = .cutShort)
    {R : β → List Char → Prop} {f : σ → β → Option σ} {xs : List β} {items : List (List Char)}
    {s : List Char} (hjoined : Joined.After close items s) (hitems : List.Forall₂ R xs items)
    (hbody : ∀ x ∈ xs, ∀ (a : σ) {b item rest : List Char}, Blanks b → R x item → Ends rest →
      (body a).run? (b ++ (item ++ rest)) = (f a x).map (·, rest))
    (hcut : ∀ x ∈ xs, ∀ (a : σ) {b item q : List Char}, (f a x).isSome → Blanks b → R x item →
      BreaksOff q (b ++ item) → (body a).Exhausts q)
    (a : σ) (hsome : (xs.foldlM f a).isSome) {q : List Char} (hq : BreaksOff q s) :
    (afterCommas close atEnd other body a).Starves q := by
  have hblank {q : List Char} (hq : Blanks q) (a : σ) :
      (afterCommas close atEnd other body a).Starves q :=
    ⟨atEnd, run_afterCommas_blanks hq a, hend⟩
  -- Induction on the items. The cut is before a comma, within the item after it, or beyond the
  -- item; only beyond it has the state moved on, and the state must stay right for the rest to be read.
  induction hjoined generalizing xs a q with
  | closed hb => exact hblank (hq.blanks hb) a
  | @comma b b' item items s hb hb' hafter ih =>
    obtain ⟨x, xs, hx, hxs, rfl⟩ := List.forall₂_cons_right_iff.mp hitems
    obtain ⟨c, hc, hsome⟩ := isSome_foldlM_cons hsome
    rcases hq.blanks_cases hb with hq | ⟨q, rfl, hothers⟩
    · exact hblank hq a
    unfold Starves
    rw [run_afterCommas_comma hclose.ne_comma (hb.dropWhile_comma q)]
    rcases hothers.append_cases with hitem | ⟨q, rfl, hrest⟩
    · -- A shorter integer may have been read as the item, but then neither comma nor bracket follows.
      have hexhausts := hcut x List.mem_cons_self a (by rw [hc]; rfl) hb' hx hitem
      exact hexhausts.bind_starves fun a => hblank Blanks.nil a
    · have hends : Ends q := hrest.ends (by simpa using hafter.ends hclose [])
      have hfirst := hbody x List.mem_cons_self a hb' hx hends
      rw [hc, ← List.append_assoc] at hfirst
      exact starves_bind_of_run (run_eq_ok_iff.mpr hfirst)
        (ih hxs (fun y hy => hbody y (List.mem_cons_of_mem x hy))
          (fun y hy => hcut y (List.mem_cons_of_mem x hy)) c hsome hrest)

end

section

variable {item : Reader β} {tree : β → Tree} {xs : List β}

theorem usesUp_nextItem {t : Tree} (h : UsesUp item t) (sofar : List β) :
    UsesUp (nextItem item sofar) t := by
  refine UsesUp.ofStart (starves_fail rfl _) fun c r q hs hq => ?_
  have hbracket := Tree.isStart.ne_bracket hs.isStart
  split
  · contradiction
  · rename_i hc
    exact absurd (Option.some.inj hc) hbracket
  · exact (h.exhausts_start hs hq).map _

theorem starves_moreItems {items : List (List Char)} {s q : List Char}
    (hitems : List.Forall₂ (fun x => (tree x).Spells) xs items)
    (hafter : Joined.After ']' items s) (hread : ∀ x ∈ xs, Reads item (tree x) (some x))
    (hcut : ∀ x ∈ xs, UsesUp item (tree x)) (sofar : List β) (hq : BreaksOff q s) :
    (moreItems item sofar).Starves q := by
  have hbody (x : β) (hx : x ∈ xs) (sofar : List β) {b s rest : List Char} (hb : Blanks b)
      (hs : (tree x).Spells s) (hrest : Ends rest) :=
    (reads_nextItem (hread x hx) sofar).run? hb hs hrest
  have hbreak (x : β) (hx : x ∈ xs) (sofar : List β) {b s q : List Char}
      (_ : (some (x :: sofar)).isSome) (hb : Blanks b) (hs : (tree x).Spells s)
      (hq : BreaksOff q (b ++ s)) :=
    (usesUp_nextItem (hcut x hx) sofar).exhausts hb hs hq
  have hsome : (xs.foldlM (fun sofar x => some (x :: sofar)) sofar.reverse).isSome := by
    have hpure := List.foldlM_pure (m := Option) (f := fun sofar x => x :: sofar)
      (b := sofar.reverse) (l := xs)
    exact hpure ▸ rfl
  exact (starves_afterCommas (f := fun sofar x => some (x :: sofar)) (.inl rfl) rfl hafter hitems
    hbody hbreak _ hsome hq).bind

theorem run_items_start {b : List Char} (hb : Blanks b) {c : Char} (hc : Tree.isStart c = true)
    (s : List Char) :
    (Json.items item).run (b ++ c :: s) = (item >>= fun a => moreItems item [a]).run (c :: s) := by
  have hbracket := Tree.isStart.ne_bracket hc
  unfold Json.items
  rw [run_bind_of_run (run_peek_start hb (Tree.isStart.not_blank hc) s)]
  split
  · contradiction
  · rename_i hc
    exact absurd (Option.some.inj hc) hbracket
  · rfl

theorem starves_items {items : List (List Char)} {s q : List Char}
    (hitems : List.Forall₂ (fun x => (tree x).Spells) xs items) (hjoined : Joined ']' items s)
    (hread : ∀ x ∈ xs, Reads item (tree x) (some x)) (hcut : ∀ x ∈ xs, UsesUp item (tree x))
    (hq : BreaksOff q s) : (Json.items item).Starves q := by
  have hblank {q : List Char} (hq : Blanks q) : (Json.items item).Starves q :=
    starves_peek (starves_fail rfl _) hq
  cases hjoined with
  | empty hb => exact hblank (hq.blanks hb)
  | @items b first others s hb hafter =>
    obtain ⟨x, xs, hx, hxs, rfl⟩ := List.forall₂_cons_right_iff.mp hitems
    obtain ⟨c, r, rfl, hc⟩ := hx.exists_cons
    unfold Starves
    rcases hq.append_cases with hfirst | ⟨q, rfl, hrest⟩
    · rcases hfirst.blanks_cases hb with hq | ⟨q, rfl, hitem⟩
      · exact hblank hq
      rw [run_items_start hb hc]
      have hexhausts := (hcut x List.mem_cons_self).exhausts_start hx hitem
      exact hexhausts.bind_starves fun a =>
        Starves.bind ⟨_, run_afterCommas_blanks Blanks.nil _, rfl⟩
    · have hends : Ends q := hrest.ends (by simpa using hafter.ends (.inl rfl) [])
      have hitem := (hread x List.mem_cons_self).run? Blanks.nil hx hends
      rw [List.append_assoc, List.cons_append, run_items_start hb hc]
      exact starves_bind_of_run (run_eq_ok_iff.mpr hitem)
        (starves_moreItems hxs hafter (fun y hy => hread y (List.mem_cons_of_mem x hy))
          (fun y hy => hcut y (List.mem_cons_of_mem x hy)) [x] hrest)

theorem NeedsAll.ofItems {p : Reader α} (hblank : ∀ q, Blanks q → p.Starves q)
    (hp : ∀ b s, Blanks b → (Json.items item).Starves s → p.Starves (b ++ '[' :: s))
    (hread : ∀ x ∈ xs, Reads item (tree x) (some x)) (hcut : ∀ x ∈ xs, UsesUp item (tree x)) :
    NeedsAll p (.list (xs.map tree)) where
  starves {b s q} hb hs hq := by
    rw [Tree.Spells] at hs
    obtain ⟨items, r, hitems, hjoined, rfl⟩ := hs
    rw [Tree.spellItems_iff, List.forall₂_map_left_iff] at hitems
    rcases hq.blanks_cases hb with hq | ⟨q, rfl, hrest⟩
    · exact hblank q hq
    · exact hp b q hb (starves_items hitems hjoined hread hcut hrest)

end

section

variable {step : σ → String → Reader σ} {f : σ → String × Tree → Option σ}
  {ms : List (String × Value)}

theorem reads_memberTree {m : String × Value}
    (h : ∀ a, ReadsMember (step a m.1) m.2.tree (f a (m.1, m.2.tree))) (a : σ) (k : String)
    (hk : (Value.memberTree m).1.text? = some k) :
    ReadsMember (step a k) (Value.memberTree m).2 (f a (k, (Value.memberTree m).2)) := by
  cases (Pieces.text?_ofString m.1).symm.trans hk
  exact h a

theorem exhausts_nextMember {a : σ} {m : String × Value}
    (h : UsesUpMember (step a m.1) m.2.tree) {b s q : List Char} (hb : Blanks b)
    (hs : Tree.SpellsMember (Value.memberTree m) s) (hq : BreaksOff q (b ++ s)) :
    (nextMember step a).Exhausts q := by
  obtain ⟨b₁, b₂, r, hb₁, hb₂, hr, rfl⟩ := hs
  let key := (Pieces.ofString m.1).chars ++ ['"']
  have hs : b ++ ((Value.memberTree m).1.quoted ++ b₁ ++ ':' :: (b₂ ++ r)) =
      b ++ '"' :: (key ++ (b₁ ++ ':' :: (b₂ ++ r))) := by
    simp [key, Pieces.quoted, Value.memberTree]
  rw [hs] at hq
  unfold nextMember
  rcases hq.blanks_cases hb with hblank | ⟨q, rfl, hmember⟩
  · exact (starves_peek (starves_fail rfl _) hblank).exhausts
  refine exhausts_bind_of_run (run_peek_start hb rfl q) (exhausts_bind_of_run rfl ?_)
  rcases hmember.append_cases with hkey | ⟨q, rfl, hrest⟩
  · exact (starves_text hkey).bind.exhausts
  · have htext : text.run (key ++ q) = .ok (m.1, q) := by
      have hrun := Pieces.run?_text (Pieces.ofString m.1) q
      rw [Pieces.text?_ofString] at hrun
      apply run_eq_ok_iff.mpr
      simpa [key] using hrun
    exact exhausts_bind_of_run htext (h.exhausts hb₁ hb₂ hr hrest)

theorem starves_members {items : List (List Char)} {s q : List Char}
    (hitems : List.Forall₂ (fun m => Tree.SpellsMember (Value.memberTree m)) ms items)
    (hjoined : Joined '}' items s)
    (hread : ∀ m ∈ ms, ∀ a, ReadsMember (step a m.1) m.2.tree (f a (m.1, m.2.tree)))
    (hcut : ∀ m ∈ ms, ∀ a, (f a (m.1, m.2.tree)).isSome → UsesUpMember (step a m.1) m.2.tree)
    {start : σ} (hsome : (ms.foldlM (fun a m => f a (m.1, m.2.tree)) start).isSome)
    (hq : BreaksOff q s) : (members step start).Starves q := by
  have hblank {q : List Char} (hq : Blanks q) : (members step start).Starves q :=
    starves_peek (starves_fail rfl _) hq
  have hbody (m : String × Value) (hm : m ∈ ms) (a : σ) {b s rest : List Char} (hb : Blanks b)
      (hs : Tree.SpellsMember (Value.memberTree m) s) (hrest : Ends rest) :
      (nextMember step a).run? (b ++ (s ++ rest)) = (f a (m.1, m.2.tree)).map (·, rest) := by
    have hrun := run?_nextMember hs (reads_memberTree (hread m hm)) a hb hrest
    rwa [show (Value.memberTree m).1.text? = some m.1 from Pieces.text?_ofString m.1] at hrun
  have hbreak (m : String × Value) (hm : m ∈ ms) (a : σ) {b s q : List Char}
      (hsome : (f a (m.1, m.2.tree)).isSome) (hb : Blanks b)
      (hs : Tree.SpellsMember (Value.memberTree m) s) (hq : BreaksOff q (b ++ s)) :=
    exhausts_nextMember (hcut m hm a hsome) hb hs hq
  cases hjoined with
  | empty hb => exact hblank (hq.blanks hb)
  | @items b first others s hb hafter =>
    obtain ⟨m, ms, hm, hms, rfl⟩ := List.forall₂_cons_right_iff.mp hitems
    obtain ⟨c, hc, hsome⟩ := isSome_foldlM_cons hsome
    obtain ⟨r, rfl⟩ := hm.exists_cons
    unfold Starves
    rcases hq.append_cases with hfirst | ⟨q, rfl, hrest⟩
    · rcases hfirst.blanks_cases hb with hq | ⟨q, rfl, hmember⟩
      · exact hblank hq
      rw [run_members_quote hb]
      have hexhausts := hbreak m List.mem_cons_self start (by rw [hc]; rfl) hb hm hfirst
      exact hexhausts.bind_starves fun a => ⟨_, run_afterCommas_blanks Blanks.nil a, rfl⟩
    · have hends : Ends q := hrest.ends (by simpa using hafter.ends (.inr rfl) [])
      have hfirst := hbody m List.mem_cons_self start hb hm hends
      rw [hc, ← List.append_assoc] at hfirst
      rw [List.append_assoc, List.cons_append, run_members_quote hb, ← List.cons_append,
        ← List.append_assoc]
      exact starves_bind_of_run (run_eq_ok_iff.mpr hfirst)
        (starves_afterCommas (f := fun a m => f a (m.1, m.2.tree)) (.inr rfl) rfl hafter hms
          (fun y hy => hbody y (List.mem_cons_of_mem m hy))
          (fun y hy => hbreak y (List.mem_cons_of_mem m hy)) c hsome hrest)

theorem NeedsAll.ofMembers {p : Reader α} {start : σ} {finish : σ → Reader α}
    (hblank : ∀ q, Blanks q → p.Starves q)
    (hp : ∀ b s, Blanks b → p.run (b ++ '{' :: s) = (members step start >>= finish).run s)
    (hread : ∀ m ∈ ms, ∀ a, ReadsMember (step a m.1) m.2.tree (f a (m.1, m.2.tree)))
    (hcut : ∀ m ∈ ms, ∀ a, (f a (m.1, m.2.tree)).isSome → UsesUpMember (step a m.1) m.2.tree)
    {a : α} (hok : Reads p (Value.object ms).tree (some a)) :
    NeedsAll p (Value.object ms).tree where
  starves {b s q} hb hs hq := by
    have hwhole := hok.run? hb hs Ends.nil
    -- That the whole text is read says that every member is, one after the other from the start.
    rw [Value.tree, Tree.Spells] at hs
    obtain ⟨items, r, hitems, hjoined, rfl⟩ := hs
    rw [Tree.spellMembers_iff] at hitems
    have hsome : (ms.foldlM (fun a m => f a (m.1, m.2.tree)) start).isSome := by
      have hstep (m : Pieces × Tree) (hm : m ∈ Value.memberTrees ms) (a : σ) (k : String)
          (hk : m.1.text? = some k) : ReadsMember (step a k) m.2 (f a (k, m.2)) := by
        rw [Value.memberTrees_eq] at hm
        obtain ⟨m, hmem, rfl⟩ := List.mem_map.mp hm
        exact reads_memberTree (hread m hmem) a k hk
      have hmembers := run?_members hitems hjoined hstep start []
      rw [Value.named?_memberTrees, Option.bind_some, List.foldlM_map, List.append_nil] at hmembers
      have hobject : p.run? (b ++ '{' :: r) = (members step start >>= finish).run? r :=
        congrArg Except.toOption (hp b r hb)
      rw [List.append_nil, hobject, run?_bind, hmembers] at hwhole
      cases hfold : ms.foldlM (fun a m => f a (m.1, m.2.tree)) start with
      | none =>
        rw [hfold] at hwhole
        contradiction
      | some c => rfl
    rw [Value.memberTrees_eq, List.forall₂_map_left_iff] at hitems
    rcases hq.blanks_cases hb with hq | ⟨q, rfl, hrest⟩
    · exact hblank q hq
    · unfold Starves
      rw [hp b q hb]
      exact (starves_members hitems hjoined hread hcut hsome hrest).bind

end

end LabelPress.Json
