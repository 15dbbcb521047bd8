import LabelPress.Proofs.Json.Reading

/-! Passing over trees. Whatever a value is, passing over it leaves what follows it; what it means
does not matter. -/
namespace LabelPress.Json

open Reader hiding true false null
open Text (isDigit)

theorem run?_skipEscape_letter {c d : Char} (h : simpleEscape? c = some d) (r : List Char) :
    skipEscape.run? (c :: r) = some ((), r) := by
  simp [skipEscape, h]

theorem run?_skipEscape_code {a b c d : Char} {n : Nat} (h : hexValue4? a b c d = some n)
    (r : List Char) : skipEscape.run? ('u' :: a :: b :: c :: d :: r) = some ((), r) := by
  simp [skipEscape, Pieces.simpleEscape?_u, Pieces.run?_hexEscape h]

theorem Pieces.run?_skipText (ps : Pieces) (rest : List Char) :
    skipText.run? (ps.chars ++ '"' :: rest) = some ((), rest) := by
  have hskip : ∃ us, (textWith skipEscape fun _ => ()).run? (ps.chars ++ '"' :: rest) =
      some (us, rest) := by
    -- What a reader of strings gives for the pieces does not matter, so any list will do.
    induction ps with
    | nil => exact ⟨[], by simp [chars, run?_textWith_cons]⟩
    | cons p ps ih =>
      obtain ⟨us, ih⟩ := ih
      refine ⟨() :: us, ?_⟩
      cases p with
      | plain c legal =>
        have hchars : chars (.plain c legal :: ps) = c :: chars ps := rfl
        rw [hchars, List.cons_append, run?_textWith_cons, if_neg legal.1, if_neg legal.2.1,
          if_neg legal.2.2, ih]
        rfl
      | letter c d legal =>
        have hchars : chars (.letter c d legal :: ps) = '\\' :: c :: chars ps := rfl
        rw [hchars, List.cons_append, List.cons_append, run?_textWith_cons, if_neg (by decide),
          if_pos rfl, run?_skipEscape_letter legal, Option.bind_some, ih]
        rfl
      | code a b c d n legal =>
        have hchars : chars (.code a b c d n legal :: ps) =
            '\\' :: 'u' :: a :: b :: c :: d :: chars ps := rfl
        rw [hchars, List.cons_append, run?_textWith_cons, if_neg (by decide), if_pos rfl]
        simp only [List.cons_append, run?_skipEscape_code legal, Option.bind_some, ih]
        rfl
  obtain ⟨us, hus⟩ := hskip
  unfold skipText
  rw [run?_bind, hus]
  rfl

theorem Digits.run?_skipDigits (ds : Digits) {rest : List Char}
    (h : ∀ c ∈ rest.head?, isDigit c = false) :
    skipDigits.run? (ds.chars ++ rest) = some ((), rest) := by
  unfold skipDigits
  rw [run?_bind, run?_span, ds.takeWhile_append h, ds.dropWhile_append h]
  simp [ds.isEmpty_chars, -List.isEmpty_iff]

namespace Literal

-- `skipNumber`, cut into the three parts of a number.
def skipWhole (first : Char) : Reader Unit :=
  if first = '0' then do
    if (← look).any isDigit then fail .badNumber
  else do
    let _ ← span isDigit

def skipFraction : Reader Unit := do
  if (← look) = some '.' then do
    eat
    skipDigits

def skipExponent : Reader Unit := do
  let next ← look
  if next = some 'e' ∨ next = some 'E' then do
    eat
    let sign ← look
    if sign = some '+' ∨ sign = some '-' then eat
    skipDigits

theorem run?_skipNumber_eq (first : Char) (s : List Char) :
    (skipNumber first).run? s =
      ((skipWhole first).run? s).bind fun x =>
        (skipFraction.run? x.2).bind fun y => skipExponent.run? y.2 := by
  have hpointDigit : isDigit '.' = false := rfl
  unfold skipNumber skipWhole skipFraction skipExponent
  by_cases hzero : first = '0'
  · by_cases hpoint : s.head? = some '.'
    · simp [hzero, hpoint, hpointDigit]
    · by_cases hany : s.head?.any isDigit <;> simp [hzero, hany, hpoint]
  · by_cases hpoint : (s.dropWhile isDigit).head? = some '.' <;> simp [hzero, hpoint]

theorem run?_skipExponent (e : Option Exponent) {rest : List Char} (h : Ends rest) :
    skipExponent.run? (exponentChars e ++ rest) = some ((), rest) := by
  unfold skipExponent
  cases e with
  | none =>
    have hmark : ¬ (rest.head? = some 'e' ∨ rest.head? = some 'E') := by
      rintro (he | he)
      · exact (h 'e' he).2.2.1 rfl
      · exact (h 'E' he).2.2.2 rfl
    simp [exponentChars, hmark]
  | some e =>
    have hdigits := e.digits.run?_skipDigits h.notDigit
    obtain ⟨c, r, hc, hdigit⟩ := e.digits.exists_cons
    have hhead : (e.digits.chars ++ rest).head? = some c := by simp [hc]
    have hplus : c ≠ '+' := by rintro rfl; contradiction
    have hminus : c ≠ '-' := by rintro rfl; contradiction
    have hmark : e.mark = 'e' ∨ e.mark = 'E' := e.mark_eq
    cases hsign : e.sign with
    | none => simp [exponentChars, Exponent.chars, hsign, hmark, hc, hplus, hminus, ← hdigits]
    | some d =>
      have hd := e.sign_eq d hsign
      simp [exponentChars, Exponent.chars, hsign, hmark, hd, hdigits]

theorem run?_skipFraction (f : Option Digits) (e : Option Exponent) {rest : List Char}
    (h : Ends rest) :
    skipFraction.run? (fractionChars f ++ (exponentChars e ++ rest)) =
      some ((), exponentChars e ++ rest) := by
  unfold skipFraction
  cases f with
  | none =>
    have hpoint := notPoint_exponentChars e h
    rw [run?_bind, run?_look, fractionChars, List.nil_append, Option.bind_some, if_neg hpoint]
    rfl
  | some ds =>
    have hdigits := ds.run?_skipDigits (notDigit_exponentChars e h)
    simp [fractionChars, hdigits]

theorem run?_skipNumber (n : Literal) {c : Char} {r rest : List Char} (hc : n.whole.chars = c :: r)
    (h : Ends rest) :
    (skipNumber c).run? (r ++ (fractionChars n.fraction ++ (exponentChars n.exponent ++ rest))) =
      some ((), rest) := by
  have hdigit := notDigit_fractionChars n.fraction n.exponent h
  have hwhole : (skipWhole c).run?
      (r ++ (fractionChars n.fraction ++ (exponentChars n.exponent ++ rest))) =
        some ((), fractionChars n.fraction ++ (exponentChars n.exponent ++ rest)) := by
    unfold skipWhole
    rcases n.noLeadingZero with hzero | hne
    · rw [hc] at hzero
      cases hzero
      have hany := any_isDigit hdigit
      rw [if_pos rfl, run?_bind, run?_look]
      simp only [Option.bind_some, List.nil_append, hany]
      rfl
    · have hzero : c ≠ '0' := by
        rintro rfl
        exact hne (by simp [hc])
      have hr : ∀ d ∈ r, isDigit d = true := fun d hd => n.whole.areDigits d (by simp [hc, hd])
      rw [if_neg hzero, run?_bind, run?_span, List.dropWhile_append_of_pos hr,
        dropWhile_of_head hdigit]
      rfl
  rw [run?_skipNumber_eq, hwhole, Option.bind_some, run?_skipFraction _ _ h, Option.bind_some]
  exact run?_skipExponent _ h

theorem run?_skipNegative (n : Literal) {rest : List Char} (h : Ends rest) :
    skipNegative.run? (n.magnitudeChars ++ rest) = some ((), rest) := by
  obtain ⟨c, r, hc, hdigit⟩ := n.whole.exists_cons
  have hnumber := n.run?_skipNumber hc h
  simp [skipNegative, magnitudeChars, hc, hdigit, hnumber]

end Literal

theorem run?_skipScalar {t : Tree} (ht : t.IsScalar) {c : Char} {r rest : List Char}
    (hs : t.Spells (c :: r)) (h : Ends rest) :
    (skipScalar c).run? (r ++ rest) = some ((), rest) := by
  cases t with
  | null =>
    rw [Tree.Spells] at hs
    cases hs
    exact run?_word _ rest
  | boolean b =>
    cases b <;>
    · rw [Tree.Spells] at hs
      cases hs
      exact run?_word _ rest
  | string ps =>
    rw [Tree.Spells] at hs
    cases hs
    have hskip := ps.run?_skipText rest
    simpa [skipScalar] using hskip
  | number n =>
    rw [Tree.Spells, Literal.chars] at hs
    split at hs
    · cases hs
      exact n.run?_skipNegative h
    · obtain ⟨d, ds, hd, hdigit⟩ := n.whole.exists_cons
      have hnumber := n.run?_skipNumber hd h
      simp only [Literal.magnitudeChars, hd, List.cons_append, List.cons.injEq] at hs
      obtain ⟨rfl, rfl⟩ := hs
      obtain ⟨hn, ht, hf, hquote, -, -, hminus⟩ := isDigit_ne hdigit
      simpa [skipScalar, hn, ht, hf, hquote, hminus, hdigit] using hnumber
  | list ts => exact ht.elim
  | object ms => exact ht.elim

def skipFrom? (around : List Container) (s : List Char) : Option (List Char) :=
  (skipFrom around s).toOption.map Subtype.val

def skipAfter? (around : List Container) (s : List Char) : Option (List Char) :=
  (skipAfter around s).toOption.map Subtype.val

theorem skipAfter?_nil (s : List Char) : skipAfter? [] s = some s := by
  unfold skipAfter?
  rw [skipAfter]
  rfl

theorem skipAfter?_close {k : Container} {outer : List Container} {s r : List Char}
    (h : s.dropWhile isBlank = k.close :: r) : skipAfter? (k :: outer) s = skipAfter? outer r := by
  unfold skipAfter?
  rw [skipAfter, separator_eq _ _ _ h, if_pos rfl]
  dsimp only
  cases skipAfter outer r <;> rfl

theorem Container.isClose (k : Container) : IsClose k.close := by
  cases k
  · exact .inl rfl
  · exact .inr rfl

theorem skipAfter?_comma {k : Container} {outer : List Container} {s r : List Char}
    (h : s.dropWhile isBlank = ',' :: r) :
    skipAfter? (k :: outer) s = ((skipKey k).run? r).bind fun x => skipFrom? (k :: outer) x.2 := by
  unfold skipAfter?
  rw [skipAfter, separator_eq _ _ _ h, if_neg k.isClose.ne_comma, if_pos rfl]
  unfold skipFrom? Reader.run? Reader.run
  dsimp only
  cases skipKey k r with
  | error e => rfl
  | ok x =>
    simp only [Except.toOption, Option.bind_some]
    cases skipFrom (k :: outer) x.2.val <;> rfl

theorem start_eq {s r : List Char} {c : Char} (h : s.dropWhile isBlank = c :: r) :
    start s =
      if c = '[' then .ok (.opening .list ⟨r, length_lt_of_dropWhile h⟩)
      else if c = '{' then .ok (.opening .object ⟨r, length_lt_of_dropWhile h⟩)
      else
        match skipScalar c r with
        | .error e => .error e
        | .ok (_, t) =>
          .ok (.scalar ⟨t.val, Nat.lt_of_le_of_lt t.property (length_lt_of_dropWhile h)⟩) := by
  unfold start
  split
  · rename_i hnil
    rw [h] at hnil
    contradiction
  · rename_i c' r' hcons
    rw [h] at hcons
    cases hcons
    rfl

def Container.opening : Container → Char
  | list => '['
  | object => '{'

theorem skipFrom?_opening {k : Container} {around : List Container} {s r : List Char}
    (h : s.dropWhile isBlank = k.opening :: r) :
    skipFrom? around s =
      ((opened k).run? r).bind fun x =>
        if x.1 then skipAfter? around x.2 else skipFrom? (k :: around) x.2 := by
  have hstart : start s = .ok (.opening k ⟨r, length_lt_of_dropWhile h⟩) := by
    cases k
    · exact start_eq h
    · exact start_eq h
  unfold skipFrom?
  rw [skipFrom, hstart]
  unfold skipAfter? Reader.run? Reader.run
  dsimp only
  cases opened k r with
  | error e => rfl
  | ok x =>
    obtain ⟨closed, t⟩ := x
    simp only [Except.toOption, Option.bind_some]
    cases closed with
    | true => cases skipAfter around t.val <;> simp
    | false => cases skipFrom (k :: around) t.val <;> simp

theorem skipFrom?_scalar {around : List Container} {s r : List Char} {c : Char}
    (h : s.dropWhile isBlank = c :: r) (hlist : c ≠ '[') (hobject : c ≠ '{') :
    skipFrom? around s = ((skipScalar c).run? r).bind fun x => skipAfter? around x.2 := by
  unfold skipFrom?
  rw [skipFrom, start_eq h, if_neg hlist, if_neg hobject]
  unfold skipAfter? Reader.run? Reader.run
  cases skipScalar c r with
  | error e => rfl
  | ok x =>
    simp only [Except.toOption, Option.bind_some]
    cases skipAfter around x.2.val <;> rfl

/-- Passing over an item of an open container comes to what follows the item. -/
structure Skips (k : Container) (item : List Char) : Prop where
  opens : ∃ c r, item = c :: r ∧ isBlank c = false ∧ c ≠ k.close
  skip {around : List Container} {b rest : List Char} : Blanks b → Ends rest →
    (((skipKey k).run? (b ++ (item ++ rest))).bind fun x => skipFrom? (k :: around) x.2) =
      skipAfter? (k :: around) rest

theorem skipAfter?_joined {k : Container} {items : List (List Char)} {s : List Char}
    (hafter : Joined.After k.close items s) (hitems : ∀ item ∈ items, Skips k item)
    (around : List Container) (rest : List Char) :
    skipAfter? (k :: around) (s ++ rest) = skipAfter? around rest := by
  induction hafter with
  | closed hb =>
    rw [List.append_assoc]
    exact skipAfter?_close (k.isClose.dropWhile hb rest)
  | @comma b b' item items s hb hb' hafter ih =>
    have hs : b ++ ',' :: (b' ++ item ++ s) ++ rest =
        b ++ ',' :: (b' ++ (item ++ (s ++ rest))) := by simp
    have hskip := hitems item List.mem_cons_self
    have hothers := ih fun other h => hitems other (List.mem_cons_of_mem _ h)
    rw [hs, skipAfter?_comma (hb.dropWhile_comma _), hskip.skip hb' (hafter.ends k.isClose rest)]
    exact hothers

theorem skipFrom?_container {k : Container} {items : List (List Char)} {s : List Char}
    (hjoined : Joined k.close items s) (hitems : ∀ item ∈ items, Skips k item)
    (around : List Container) {b : List Char} (hb : Blanks b) (rest : List Char) :
    skipFrom? around (b ++ k.opening :: (s ++ rest)) = skipAfter? around rest := by
  have hblank : isBlank k.opening = false := by cases k <;> rfl
  rw [skipFrom?_opening (dropWhile_of_start hb hblank _)]
  unfold opened
  cases hjoined with
  | @empty b' hb' =>
    rw [List.append_assoc, List.cons_append, run?_bind, run?_peek_start hb' k.isClose.not_blank]
    simp
  | @items b' first others s hb' hafter =>
    have hfirst := hitems first List.mem_cons_self
    have hskip : (((skipKey k).run? (first ++ (s ++ rest))).bind fun x =>
        skipFrom? (k :: around) x.2) = skipAfter? (k :: around) (s ++ rest) :=
      hfirst.skip Blanks.nil (hafter.ends k.isClose rest)
    have hothers := skipAfter?_joined hafter
      (fun item h => hitems item (List.mem_cons_of_mem _ h)) around rest
    obtain ⟨c, r, rfl, hc, hne⟩ := hfirst.opens
    have hs : b' ++ (c :: r) ++ s ++ rest = b' ++ c :: (r ++ (s ++ rest)) := by simp
    rw [List.cons_append] at hskip
    rw [hs, run?_bind, run?_peek_start hb' hc]
    simp only [Option.bind_some, if_neg hne, run?_bind, Option.bind_assoc, run?_pure,
      Bool.false_eq_true, if_false]
    rw [hskip, hothers]

theorem skips_item {t : Tree} {s : List Char} (hs : t.Spells s)
    (h : ∀ (around : List Container) {b rest : List Char}, Blanks b → Ends rest →
      skipFrom? around (b ++ (s ++ rest)) = skipAfter? around rest) : Skips .list s where
  opens := by
    obtain ⟨c, r, rfl, hc⟩ := hs.exists_cons
    exact ⟨c, r, rfl, Tree.isStart.not_blank hc, Tree.isStart.ne_bracket hc⟩
  skip := h _

theorem skips_member {m : Pieces × Tree} {s : List Char} (hs : Tree.SpellsMember m s)
    (h : ∀ (around : List Container) {b s rest : List Char}, Blanks b → m.2.Spells s → Ends rest →
      skipFrom? around (b ++ (s ++ rest)) = skipAfter? around rest) : Skips .object s where
  opens := by
    obtain ⟨r, rfl⟩ := hs.exists_cons
    exact ⟨'"', r, rfl, rfl, by decide⟩
  skip := by
    intro around b rest hb hrest
    obtain ⟨b₁, b₂, r, hb₁, hb₂, hr, rfl⟩ := hs
    unfold skipKey
    rw [Tree.append_member, run?_bind, run?_peek_start hb (by rfl)]
    simp only [Option.bind_some, run?_bind, run?_eat, List.tail_cons, Pieces.run?_skipText,
      run?_colon hb₁]
    exact h _ hb₂ hr hrest

theorem skipFrom?_scalar_tree (t : Tree) (ht : t.IsScalar) (around : List Container)
    {b s rest : List Char} (hb : Blanks b) (hs : t.Spells s) (h : Ends rest) :
    skipFrom? around (b ++ (s ++ rest)) = skipAfter? around rest := by
  obtain ⟨c, r, rfl, hc⟩ := hs.exists_cons
  have hopens : c ≠ '[' ∧ c ≠ '{' := hs.ne_opening ht
  rw [List.cons_append,
    skipFrom?_scalar (dropWhile_of_start hb (Tree.isStart.not_blank hc) _) hopens.1 hopens.2,
    run?_skipScalar ht hs h]
  rfl

theorem skipFrom?_tree (t : Tree) (around : List Container) {b s rest : List Char} (hb : Blanks b)
    (hs : t.Spells s) (h : Ends rest) :
    skipFrom? around (b ++ (s ++ rest)) = skipAfter? around rest := by
  induction t generalizing around b s rest with
  | list ts ih =>
    rw [Tree.Spells] at hs
    obtain ⟨items, r, hitems, hjoined, rfl⟩ := hs
    rw [Tree.spellItems_iff] at hitems
    refine skipFrom?_container (k := .list) hjoined ?_ around hb rest
    intro item hitem
    obtain ⟨t, ht, hspells⟩ := exists_of_forall₂ hitems hitem
    exact skips_item hspells fun around _ _ hb h => ih t ht around hb hspells h
  | object ms ih =>
    rw [Tree.Spells] at hs
    obtain ⟨items, r, hitems, hjoined, rfl⟩ := hs
    rw [Tree.spellMembers_iff] at hitems
    refine skipFrom?_container (k := .object) hjoined ?_ around hb rest
    intro item hitem
    obtain ⟨m, hm, hspells⟩ := exists_of_forall₂ hitems hitem
    exact skips_member hspells fun around _ _ _ hb hs h => ih m hm around hb hs h
  | null => exact skipFrom?_scalar_tree .null trivial around hb hs h
  | boolean v => exact skipFrom?_scalar_tree (.boolean v) trivial around hb hs h
  | number n => exact skipFrom?_scalar_tree (.number n) trivial around hb hs h
  | string ps => exact skipFrom?_scalar_tree (.string ps) trivial around hb hs h

theorem reads_skipValue (t : Tree) : Reads skipValue t (some ()) := by
  constructor
  intro b s rest hb hs h
  have hskip := skipFrom?_tree t [] hb hs h
  rw [skipAfter?_nil] at hskip
  unfold skipFrom? at hskip
  unfold Reader.run? Reader.run skipValue
  cases hfrom : skipFrom [] (b ++ (s ++ rest)) with
  | error e =>
    rw [hfrom] at hskip
    contradiction
  | ok r =>
    rw [hfrom] at hskip
    simpa [Except.toOption] using hskip

end LabelPress.Json
