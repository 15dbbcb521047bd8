import LabelPress.Proofs.Json.Tree
import Mathlib.Tactic.SplitIfs

/-! Reading the tokens of a text: blanks, words, numbers and strings. Each reader takes exactly the
characters of its token and gives what the token means. -/
namespace LabelPress.Json

open Reader hiding true false null
open Text (isDigit)

namespace Reader

variable {α β : Type}

def run? (p : Reader α) (s : List Char) : Option (α × List Char) := (p.run s).toOption

@[simp] theorem run?_fail (e : Fault) (s : List Char) : (fail e : Reader α).run? s = none := rfl

@[simp] theorem run?_pure (a : α) (s : List Char) : (pure a : Reader α).run? s = some (a, s) := rfl

@[simp] theorem run?_bind (p : Reader α) (f : α → Reader β) (s : List Char) :
    (p >>= f).run? s = (p.run? s).bind fun x => (f x.1).run? x.2 := by
  unfold run?
  rw [run_bind]
  cases p.run s <;> rfl

@[simp] theorem run?_ofExcept (x : Except Fault α) (s : List Char) :
    (ofExcept x).run? s = x.toOption.map (·, s) := by
  cases x <;> rfl

@[simp] theorem run?_look (s : List Char) : look.run? s = some (s.head?, s) := rfl

@[simp] theorem run?_peek (s : List Char) :
    peek.run? s = some ((s.dropWhile isBlank).head?, s.dropWhile isBlank) := rfl

@[simp] theorem run?_eat (s : List Char) : eat.run? s = some ((), s.tail) := rfl

@[simp] theorem run?_span (p : Char → Bool) (s : List Char) :
    (span p).run? s = some (s.takeWhile p, s.dropWhile p) := rfl

@[simp] theorem run?_ite (c : Prop) [Decidable c] (p q : Reader α) (s : List Char) :
    (if c then p else q).run? s = if c then p.run? s else q.run? s :=
  apply_ite (fun r : Reader α => r.run? s) c p q

end Reader

theorem dropWhile_of_head {p : Char → Bool} {s : List Char} (h : ∀ c ∈ s.head?, p c = false) :
    s.dropWhile p = s := by
  cases s with
  | nil => rfl
  | cons c s => simp [h c rfl]

theorem takeWhile_of_head {p : Char → Bool} {s : List Char} (h : ∀ c ∈ s.head?, p c = false) :
    s.takeWhile p = [] := by
  cases s with
  | nil => rfl
  | cons c s => simp [h c rfl]

namespace Blanks

theorem nil : Blanks [] := by
  intro c hc
  contradiction

theorem cons {c : Char} {b : List Char} (hc : isBlank c = true) (hb : Blanks b) :
    Blanks (c :: b) := by
  intro d hd
  cases hd with
  | head => exact hc
  | tail _ hd => exact hb d hd

theorem replicate (n : Nat) : Blanks (List.replicate n ' ') := by
  intro c hc
  rw [List.eq_of_mem_replicate hc]
  rfl

theorem dropWhile {b : List Char} (h : Blanks b) (s : List Char) :
    (b ++ s).dropWhile isBlank = s.dropWhile isBlank :=
  List.dropWhile_append_of_pos h

theorem dropWhile_eq_nil {b : List Char} (h : Blanks b) : b.dropWhile isBlank = [] := by
  simpa using h.dropWhile []

end Blanks

/-- Nothing that could be a further character of a number follows. -/
def Ends (rest : List Char) : Prop :=
  ∀ c ∈ rest.head?, isDigit c = false ∧ c ≠ '.' ∧ c ≠ 'e' ∧ c ≠ 'E'

namespace Ends

theorem nil : Ends [] := by
  intro c hc
  contradiction

theorem of_blank {c : Char} (h : isBlank c = true) (s : List Char) : Ends (c :: s) := by
  intro d hd
  cases hd
  simp only [isBlank, Bool.or_eq_true, beq_iff_eq] at h
  rcases h with ((rfl | rfl) | rfl) | rfl <;> decide

theorem of_blanks {b : List Char} (h : Blanks b) {s : List Char} (hs : Ends s) : Ends (b ++ s) := by
  cases b with
  | nil => exact hs
  | cons c b => exact of_blank (h c List.mem_cons_self) _

theorem comma (s : List Char) : Ends (',' :: s) := by
  intro c hc
  cases hc
  decide

theorem bracket (s : List Char) : Ends (']' :: s) := by
  intro c hc
  cases hc
  decide

theorem brace (s : List Char) : Ends ('}' :: s) := by
  intro c hc
  cases hc
  decide

theorem notDigit {rest : List Char} (h : Ends rest) : ∀ c ∈ rest.head?, isDigit c = false :=
  fun c hc => (h c hc).1

end Ends

namespace Digits

variable (ds : Digits) {rest : List Char}

theorem takeWhile_append (h : ∀ c ∈ rest.head?, isDigit c = false) :
    (ds.chars ++ rest).takeWhile isDigit = ds.chars := by
  rw [List.takeWhile_append_of_pos ds.areDigits, takeWhile_of_head h, List.append_nil]

theorem dropWhile_append (h : ∀ c ∈ rest.head?, isDigit c = false) :
    (ds.chars ++ rest).dropWhile isDigit = rest := by
  rw [List.dropWhile_append_of_pos ds.areDigits, dropWhile_of_head h]

@[simp] theorem isEmpty_chars : ds.chars.isEmpty = false := by
  simpa using ds.nonempty

theorem exists_cons : ∃ c r, ds.chars = c :: r ∧ isDigit c = true := by
  cases h : ds.chars with
  | nil => exact absurd h ds.nonempty
  | cons c r => exact ⟨c, r, rfl, ds.areDigits c (by simp [h])⟩

end Digits

theorem not_isDigit_of_mark {e : Exponent} : isDigit e.mark = false := by
  rcases e.mark_eq with h | h <;> rw [h] <;> rfl

namespace Literal

theorem notDigit_exponentChars (e : Option Exponent) {rest : List Char} (h : Ends rest) :
    ∀ c ∈ (exponentChars e ++ rest).head?, isDigit c = false := by
  cases e with
  | none => exact h.notDigit
  | some e =>
    intro c hc
    cases hc
    exact not_isDigit_of_mark

theorem notDigit_fractionChars (f : Option Digits) (e : Option Exponent) {rest : List Char}
    (h : Ends rest) :
    ∀ c ∈ (fractionChars f ++ (exponentChars e ++ rest)).head?, isDigit c = false := by
  cases f with
  | none => exact notDigit_exponentChars e h
  | some ds =>
    intro c hc
    cases hc
    rfl

theorem notPoint_exponentChars (e : Option Exponent) {rest : List Char} (h : Ends rest) :
    (exponentChars e ++ rest).head? ≠ some '.' := by
  cases e with
  | none => exact fun he => (h '.' he).2.1 rfl
  | some e =>
    intro he
    have hmark : e.mark = '.' := by simpa [exponentChars, Exponent.chars] using he
    rcases e.mark_eq with hm | hm <;> rw [hm] at hmark <;> contradiction

theorem run_exponentPart (significand : Nat) (exponent : Int) (e : Option Exponent)
    {rest : List Char} (h : Ends rest) :
    (Number.exponentPart significand exponent).run (exponentChars e ++ rest) =
      (readExponent significand exponent e).map (·, rest) := by
  cases e with
  | none =>
    have hmark : rest.head? ≠ some 'e' ∧ rest.head? ≠ some 'E' :=
      ⟨fun he => (h 'e' he).2.2.1 rfl, fun he => (h 'E' he).2.2.2 rfl⟩
    simp only [exponentChars, List.nil_append, Number.exponentPart, run_bind, run_look,
      readExponent]
    split
    · rename_i he; exact absurd he hmark.1
    · rename_i he; exact absurd he hmark.2
    · exact run_ofExcept _ _
  | some e =>
    obtain ⟨mark, sign, ds, hmark, hsign⟩ := e
    have htake := ds.takeWhile_append h.notDigit
    have hdrop := ds.dropWhile_append h.notDigit
    obtain ⟨c, r, hc, hdigit⟩ := ds.exists_cons
    have hhead : (ds.chars ++ rest).head? = some c := by simp [hc]
    have hplus : c ≠ '+' := by rintro rfl; contradiction
    have hminus : c ≠ '-' := by rintro rfl; contradiction
    have hempty := ds.isEmpty_chars
    have hsign' : sign = none ∨ sign = some '+' ∨ sign = some '-' := by
      cases sign with
      | none => exact .inl rfl
      | some d => rcases hsign d rfl with rfl | rfl <;> simp
    unfold Number.exponentPart readExponent exponentChars Exponent.chars
    rcases hmark with rfl | rfl <;> rcases hsign' with rfl | rfl | rfl <;>
      simp only [run_bind, run_look, run_eat, run_span, List.cons_append, List.nil_append,
        List.head?_cons, List.tail_cons, Option.toList_none, Option.toList_some, hhead,
        htake, hdrop, hempty, hplus, hminus, or_self, or_true, true_or, reduceIte,
        Option.some.injEq, reduceCtorEq, Bool.false_eq_true, Char.reduceEq] <;>
      split <;> first
        | exact run_ofExcept _ _
        | by_cases hzero : significand = 0 <;> simp [hzero, hminus] <;> rfl

theorem run_fractionPart (significand : Nat) (exponent : Int) (f : Option Digits)
    (e : Option Exponent) {rest : List Char} (h : Ends rest) :
    (Number.fractionPart significand exponent).run
        (fractionChars f ++ (exponentChars e ++ rest)) =
      (readFraction significand exponent e f).map (·, rest) := by
  have hdigit := notDigit_exponentChars e h
  cases f with
  | none =>
    have hpoint := notPoint_exponentChars e h
    unfold Number.fractionPart
    rw [run_bind, run_look]
    simp only [fractionChars, List.nil_append]
    exact run_exponentPart _ _ _ h
  | some ds =>
    have htake := ds.takeWhile_append hdigit
    have hdrop := ds.dropWhile_append hdigit
    simp only [Number.fractionPart, fractionChars, run_bind, run_look, run_eat, run_span,
      List.cons_append, List.head?_cons, List.tail_cons, htake, hdrop, ds.isEmpty_chars,
      Bool.false_eq_true, reduceIte, readFraction]
    exact run_exponentPart _ _ _ h

theorem next_eq_iff (f : Option Digits) (e : Option Exponent) {rest : List Char} (h : Ends rest) :
    let next := (fractionChars f ++ (exponentChars e ++ rest)).head?
    (next ≠ some '.' ∧ next ≠ some 'e' ∧ next ≠ some 'E') ↔ f.isNone ∧ e.isNone := by
  cases f with
  | some ds => simp [fractionChars]
  | none =>
    cases e with
    | some e =>
      rcases e.mark_eq with hm | hm <;>
        simp [fractionChars, exponentChars, Exponent.chars, hm]
    | none =>
      simp only [fractionChars, exponentChars, List.nil_append, Option.isNone_none, and_self,
        iff_true]
      exact ⟨fun he => (h _ he).2.1 rfl, fun he => (h _ he).2.2.1 rfl, fun he => (h _ he).2.2.2 rfl⟩

theorem run_afterWhole (n : Literal) (significand dropped : Nat) {rest : List Char}
    (h : Ends rest) :
    (Number.afterWhole n.negative significand dropped).run
        (fractionChars n.fraction ++ (exponentChars n.exponent ++ rest)) =
      (if dropped = 0 ∧ n.fraction.isNone ∧ n.exponent.isNone then
        .ok (Number.ofSignificand n.negative significand)
      else
        (readFraction significand dropped n.exponent n.fraction).map fun x =>
          Number.real (if n.negative then x.negate else x)).map (·, rest) := by
  have hnext := next_eq_iff n.fraction n.exponent h
  have hread := run_fractionPart significand dropped n.fraction n.exponent h
  simp only at hnext
  unfold Number.afterWhole
  rw [run_bind, run_look]
  simp only [hnext]
  split
  · rename_i hplain
    obtain ⟨-, hf, he⟩ := hplain
    rw [Option.isNone_iff_eq_none] at hf he
    simp only [hf, he, fractionChars, exponentChars, List.nil_append]
    rfl
  · rw [run_bind, hread]
    cases readFraction significand dropped n.exponent n.fraction <;> rfl

theorem extend_zero : Number.extend 0 ['0'] = (0, 1) := by rfl

theorem any_isDigit {s : List Char} (h : ∀ c ∈ s.head?, isDigit c = false) :
    s.head?.any isDigit = false := by
  rw [Option.any_eq_false_iff_get]
  intro hsome
  exact h _ (Option.get_mem hsome)

theorem run_number (n : Literal) {rest : List Char} (h : Ends rest) :
    (number n.negative).run (n.magnitudeChars ++ rest) = n.read.map (·, rest) := by
  have hdigit := notDigit_fractionChars n.fraction n.exponent h
  unfold number magnitudeChars Literal.read
  rw [List.append_assoc, List.append_assoc, run_bind, run_look]
  rcases n.noLeadingZero with hzero | hne
  · have hany := any_isDigit hdigit
    simp only [hzero, List.cons_append, List.nil_append, List.head?_cons, run_bind, run_eat,
      List.tail_cons, run_look, hany, extend_zero]
    exact run_afterWhole n 0 0 h
  · obtain ⟨c, r, hc, hcdigit⟩ := n.whole.exists_cons
    have hhead : (n.whole.chars ++ (fractionChars n.fraction ++
        (exponentChars n.exponent ++ rest))).head? = some c := by
      simp [hc]
    have htake := n.whole.takeWhile_append hdigit
    have hdrop := n.whole.dropWhile_append hdigit
    have hzero : c ≠ '0' := by
      rintro rfl
      exact hne (by simp [hc])
    simp only [hhead, hcdigit, reduceIte, run_bind, run_span, htake, hdrop]
    exact run_afterWhole n _ _ h

end Literal

theorem Literal.run?_number (n : Literal) {rest : List Char} (h : Ends rest) :
    (number n.negative).run? (n.magnitudeChars ++ rest) = n.read.toOption.map (·, rest) := by
  unfold Reader.run?
  rw [n.run_number h]
  cases n.read <;> rfl

namespace Pieces

theorem run_textWith_cons {α : Type} (afterBackslash : Reader α) (plain : Char → α) (c : Char)
    (r : List Char) :
    (textWith afterBackslash plain).run (c :: r) =
      if c = '"' then .ok ([], r)
      else if c = '\\' then
        (afterBackslash >>= fun a =>
          textWith afterBackslash plain >>= fun as => pure (a :: as)).run r
      else if c < ' ' then .error .controlCharacter
      else (textWith afterBackslash plain >>= fun as => pure (plain c :: as)).run r := by
  simp only [run_bind]
  conv => lhs; unfold Reader.run
  rw [textWith]
  unfold Reader.run
  split_ifs with hquote hbackslash hcontrol
  · rfl
  · cases afterBackslash r with
    | error e => rfl
    | ok x =>
      dsimp only
      cases textWith afterBackslash plain x.2.val <;> rfl
  · rfl
  · cases textWith afterBackslash plain r <;> rfl

theorem run?_textWith_cons {α : Type} (afterBackslash : Reader α) (plain : Char → α) (c : Char)
    (r : List Char) :
    (textWith afterBackslash plain).run? (c :: r) =
      if c = '"' then some ([], r)
      else if c = '\\' then
        (afterBackslash.run? r).bind fun x =>
          ((textWith afterBackslash plain).run? x.2).map fun y => (x.1 :: y.1, y.2)
      else if c < ' ' then none
      else ((textWith afterBackslash plain).run? r).map fun y => (plain c :: y.1, y.2) := by
  have hmap (a : α) (s : List Char) :
      (textWith afterBackslash plain >>= fun as => pure (a :: as)).run? s =
        ((textWith afterBackslash plain).run? s).map fun y => (a :: y.1, y.2) := by
    rw [run?_bind]
    cases (textWith afterBackslash plain).run? s <;> rfl
  simp only [← hmap]
  conv => lhs; unfold Reader.run?
  rw [run_textWith_cons]
  split_ifs
  · rfl
  · exact run?_bind _ _ _
  · rfl
  · rfl

theorem run?_hexEscape {a b c d : Char} {n : Nat} (h : hexValue4? a b c d = some n)
    (r : List Char) : hexEscape.run? (a :: b :: c :: d :: r) = some (n, r) := by
  have hsize (c : Char) : 1 ≤ c.utf8Size := c.utf8Size_pos
  have hbytes : ¬ ((a :: b :: c :: d :: r).take 4).foldl (fun n c => n + c.utf8Size) 0 < 4 := by
    have ha := hsize a
    have hb := hsize b
    have hc := hsize c
    have hd := hsize d
    simp only [List.take_succ_cons, List.take_zero, List.foldl_cons, List.foldl_nil]
    omega
  obtain ⟨i, j, k, l, hi, hj, hk, hl, rfl⟩ := hexValue4?_eq_some_iff.mp h
  unfold Reader.run? Reader.run hexEscape
  rw [if_neg hbytes]
  simp only [hi, hj, hk, hl, Rest.val_after, Rest.val_all, Except.toOption]

theorem simpleEscape?_u : simpleEscape? 'u' = none := by rfl

theorem run?_escape_letter {c d : Char} (h : simpleEscape? c = some d) (r : List Char) :
    escape.run? (c :: r) = some (d, r) := by
  simp [escape, h]

theorem run?_escape_code {a b c d : Char} {n : Nat} (h : hexValue4? a b c d = some n)
    (r : List Char) :
    escape.run? ('u' :: a :: b :: c :: d :: r) =
      if isSecondSurrogate n then none
      else if isFirstSurrogate n then
        ((escapeMark '\\').run? r).bind fun x =>
          ((escapeMark 'u').run? x.2).bind fun x =>
            (hexEscape.run? x.2).bind fun x =>
              if isSecondSurrogate x.1 then some (ofPair n x.1, x.2) else none
      else some (Char.ofNat n, r) := by
  simp only [escape, unicodeEscape, run?_bind, run?_look, List.head?_cons, simpleEscape?_u,
    reduceIte, run?_eat, List.tail_cons, run?_hexEscape h, Option.bind_some, run?_ite, run?_fail,
    run?_pure]
  rfl

theorem run?_escapeMark_cons (c d : Char) (r : List Char) :
    (escapeMark c).run? (d :: r) = if d = c then some ((), r) else none := by
  simp [escapeMark]

theorem run?_escapeMark_chars (ps : Pieces) (rest : List Char) :
    ((escapeMark '\\').run? (ps.chars ++ '"' :: rest)).bind
        (fun x => (escapeMark 'u').run? x.2) =
      match ps with
      | .code a b c d _ _ :: ps => some ((), a :: b :: c :: d :: (chars ps ++ '"' :: rest))
      | _ => none := by
  cases ps with
  | nil => simp [chars, run?_escapeMark_cons]
  | cons p ps =>
    cases p with
    | plain c legal =>
      simp [chars, Piece.chars, run?_escapeMark_cons, legal.2.1]
    | letter c d legal =>
      have hu : c ≠ 'u' := by
        rintro rfl
        rw [simpleEscape?_u] at legal
        contradiction
      simp [chars, Piece.chars, run?_escapeMark_cons, hu]
    | code a b c d n legal =>
      simp [chars, Piece.chars, run?_escapeMark_cons]

theorem run?_textWith_code {a b c d : Char} {n : Nat} (legal : hexValue4? a b c d = some n)
    (ps : Pieces) (rest : List Char) :
    (textWith escape id).run? (chars (.code a b c d n legal :: ps) ++ '"' :: rest) =
      (escape.run? ('u' :: a :: b :: c :: d :: (chars ps ++ '"' :: rest))).bind fun x =>
        ((textWith escape id).run? x.2).map fun y => (x.1 :: y.1, y.2) := by
  have hchars : chars (.code a b c d n legal :: ps) =
      '\\' :: 'u' :: a :: b :: c :: d :: chars ps := rfl
  rw [hchars, List.cons_append, run?_textWith_cons, if_neg (by decide), if_pos rfl]
  rfl

theorem run?_textWith (ps : Pieces) (rest : List Char) :
    (textWith escape id).run? (ps.chars ++ '"' :: rest) = ps.meant?.map (·, rest) := by
  fun_induction meant? ps with
  | case1 => simp [chars, run?_textWith_cons]
  | case2 c legal ps ih =>
    have hchars : chars (.plain c legal :: ps) = c :: chars ps := rfl
    rw [hchars, List.cons_append, run?_textWith_cons, if_neg legal.1, if_neg legal.2.1,
      if_neg legal.2.2, ih]
    cases meant? ps <;> rfl
  | case3 c d legal ps ih =>
    have hchars : chars (.letter c d legal :: ps) = '\\' :: c :: chars ps := rfl
    rw [hchars, List.cons_append, List.cons_append, run?_textWith_cons, if_neg (by decide),
      if_pos rfl, run?_escape_letter legal]
    simp only [Option.bind_some, ih]
    cases meant? ps <;> rfl
  | case4 a b c d n legal ps hsecond =>
    rw [run?_textWith_code, run?_escape_code legal, if_pos hsecond]
    rfl
  | case5 a b c d n legal hsecond hfirst a' b' c' d' m legal' ps hm ih =>
    rw [run?_textWith_code, run?_escape_code legal, if_neg hsecond, if_pos hfirst,
      ← Option.bind_assoc, run?_escapeMark_chars]
    simp only [Option.bind_some, run?_hexEscape legal', if_pos hm, ih]
    cases meant? ps <;> rfl
  | case6 a b c d n legal hsecond hfirst a' b' c' d' m legal' ps hm =>
    rw [run?_textWith_code, run?_escape_code legal, if_neg hsecond, if_pos hfirst,
      ← Option.bind_assoc, run?_escapeMark_chars]
    simp only [Option.bind_some, run?_hexEscape legal', if_neg hm]
    rfl
  | case7 a b c d n legal ps hsecond hfirst hother =>
    rw [run?_textWith_code, run?_escape_code legal, if_neg hsecond, if_pos hfirst,
      ← Option.bind_assoc, run?_escapeMark_chars]
    split
    · exact (hother _ _ _ _ _ _ _ rfl).elim
    · rfl
  | case8 a b c d n legal ps hsecond hfirst ih =>
    rw [run?_textWith_code, run?_escape_code legal, if_neg hsecond, if_neg hfirst]
    simp only [Option.bind_some, ih]
    cases meant? ps <;> rfl

theorem run?_text (ps : Pieces) (rest : List Char) :
    text.run? (ps.chars ++ '"' :: rest) = ps.text?.map (·, rest) := by
  unfold text text?
  rw [run?_bind, run?_textWith]
  cases ps.meant? <;> rfl

end Pieces

end LabelPress.Json
