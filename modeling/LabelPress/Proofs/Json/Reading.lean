import LabelPress.Json.Field
import LabelPress.Proofs.Json.Lexeme
import Mathlib.Data.List.Forall2

/-! Reading trees. A reader of values sees the tree of a text and nothing else of it: every text of
a tree, with any blanks in front, gives the value of the tree and leaves what follows it. -/
namespace LabelPress.Json

open Reader hiding true false null
open Text (isDigit)

variable {α β σ : Type}

theorem exists_of_forall₂ {R : α → β → Prop} {xs : List α} {ys : List β}
    (h : List.Forall₂ R xs ys) {y : β} (hy : y ∈ ys) : ∃ x ∈ xs, R x y := by
  induction h with
  | nil => contradiction
  | cons hxy _ ih =>
    cases hy with
    | head => exact ⟨_, List.mem_cons_self, hxy⟩
    | tail _ hy =>
      obtain ⟨x, hx, hR⟩ := ih hy
      exact ⟨x, List.mem_cons_of_mem _ hx, hR⟩

namespace Tree

@[induction_eliminator] theorem induct {P : Tree → Prop} (null : P null)
    (boolean : ∀ b, P (boolean b)) (number : ∀ n, P (number n)) (string : ∀ s, P (string s))
    (list : ∀ ts, (∀ t ∈ ts, P t) → P (list ts))
    (object : ∀ ms, (∀ m ∈ ms, P m.2) → P (object ms)) (t : Tree) : P t :=
  @Tree.rec P (fun ts => ∀ t ∈ ts, P t) (fun ms => ∀ m ∈ ms, P m.2) (fun m => P m.2)
    null boolean number string list object
    (fun _ h => absurd h List.not_mem_nil)
    (fun _ _ ht hts _ h => by
      cases h with
      | head => exact ht
      | tail _ h => exact hts _ h)
    (fun _ h => absurd h List.not_mem_nil)
    (fun _ _ hm hms _ h => by
      cases h with
      | head => exact hm
      | tail _ h => exact hms _ h)
    (fun _ _ ht => ht) t

def SpellsMember (m : Pieces × Tree) (s : List Char) : Prop :=
  ∃ b b' r, Blanks b ∧ Blanks b' ∧ m.2.Spells r ∧ s = m.1.quoted ++ b ++ ':' :: (b' ++ r)

theorem SpellsMember.exists_cons {m : Pieces × Tree} {s : List Char} (h : SpellsMember m s) :
    ∃ r, s = '"' :: r := by
  obtain ⟨b, b', r, -, -, -, rfl⟩ := h
  exact ⟨_, rfl⟩

theorem append_member (k : Pieces) (before b b' r rest : List Char) :
    before ++ (k.quoted ++ b ++ ':' :: (b' ++ r) ++ rest) =
      before ++ '"' :: (k.chars ++ '"' :: (b ++ ':' :: (b' ++ (r ++ rest)))) := by
  simp [Pieces.quoted]

theorem spellItems_iff {ts : List Tree} {items : List (List Char)} :
    SpellItems ts items ↔ List.Forall₂ Spells ts items := by
  induction ts generalizing items with
  | nil => simp [SpellItems]
  | cons t ts ih =>
    simp only [SpellItems, ih, List.forall₂_cons_left_iff]

theorem spellMembers_iff {ms : List (Pieces × Tree)} {items : List (List Char)} :
    SpellMembers ms items ↔ List.Forall₂ SpellsMember ms items := by
  induction ms generalizing items with
  | nil => simp [SpellMembers]
  | cons m ms ih =>
    simp only [SpellMembers, ih, List.forall₂_cons_left_iff, SpellsMember]
    constructor
    · rintro ⟨b, b', s, rest, hb, hb', hs, hrest, rfl⟩
      exact ⟨_, rest, ⟨b, b', s, hb, hb', hs, rfl⟩, hrest, rfl⟩
    · rintro ⟨_, rest, ⟨b, b', s, hb, hb', hs, rfl⟩, hrest, rfl⟩
      exact ⟨b, b', s, rest, hb, hb', hs, hrest, rfl⟩

theorem itemValues?_eq (depth : Nat) (ts : List Tree) :
    itemValues? depth ts = ts.mapM (value? depth) := by
  induction ts with
  | nil => rfl
  | cons t ts ih => rw [itemValues?, List.mapM_cons, ih]

def memberValue? (depth : Nat) (m : Pieces × Tree) : Option (String × Value) := do
  let k ← m.1.text?
  let v ← m.2.value? depth
  pure (k, v)

theorem memberValues?_eq (depth : Nat) (ms : List (Pieces × Tree)) :
    memberValues? depth ms = ms.mapM (memberValue? depth) := by
  induction ms with
  | nil => rfl
  | cons m ms ih =>
    rw [memberValues?, List.mapM_cons, ih]
    simp [memberValue?, Option.bind_assoc]

def isStart (c : Char) : Bool := ['n', 't', 'f', '"', '[', '{', '-'].contains c || isDigit c

theorem isStart.not_blank {c : Char} (h : isStart c = true) : isBlank c = false := by
  cases hb : isBlank c with
  | false => rfl
  | true =>
    simp only [isBlank, Bool.or_eq_true, beq_iff_eq] at hb
    rcases hb with ((rfl | rfl) | rfl) | rfl <;> contradiction

theorem isStart.ne_bracket {c : Char} (h : isStart c = true) : c ≠ ']' := by
  rintro rfl
  contradiction

theorem exists_cons_number (n : Literal) :
    ∃ c r, n.chars = c :: r ∧ (c = '-' ∨ isDigit c = true) := by
  obtain ⟨c, r, hc, hdigit⟩ := n.whole.exists_cons
  unfold Literal.chars Literal.magnitudeChars
  split
  · exact ⟨_, _, rfl, .inl rfl⟩
  · rw [hc]
    exact ⟨c, _, rfl, .inr hdigit⟩

theorem Spells.number_start {n : Literal} {c : Char} {r : List Char}
    (h : (number n).Spells (c :: r)) : c = '-' ∨ isDigit c = true := by
  rw [Spells] at h
  obtain ⟨d, ds, hd, hstart⟩ := exists_cons_number n
  cases h.trans hd
  exact hstart

theorem Spells.exists_cons {t : Tree} {s : List Char} (h : t.Spells s) :
    ∃ c r, s = c :: r ∧ isStart c = true := by
  cases t with
  | null =>
    rw [Spells] at h
    exact ⟨_, _, h, rfl⟩
  | boolean b =>
    cases b <;> (rw [Spells] at h; exact ⟨_, _, h, rfl⟩)
  | number n =>
    rw [Spells] at h
    obtain ⟨c, r, hc, hstart⟩ := exists_cons_number n
    exact ⟨c, r, h.trans hc, by rcases hstart with rfl | hdigit <;> simp [isStart, *]⟩
  | string ps =>
    rw [Spells] at h
    exact ⟨_, _, h, rfl⟩
  | list ts =>
    rw [Spells] at h
    obtain ⟨items, r, -, -, hs⟩ := h
    exact ⟨_, _, hs, rfl⟩
  | object ms =>
    rw [Spells] at h
    obtain ⟨items, r, -, -, hs⟩ := h
    exact ⟨_, _, hs, rfl⟩

end Tree

theorem separator_eq {s r : List Char} {c : Char} (close : Char) (atEnd other : Fault)
    (h : s.dropWhile isBlank = c :: r) :
    separator close atEnd other s =
      if c = close then .ok (.closed ⟨r, length_lt_of_dropWhile h⟩)
      else if c = ',' then .ok (.comma ⟨r, length_lt_of_dropWhile h⟩)
      else .error other := by
  unfold separator
  split
  · rename_i hnil
    rw [h] at hnil
    contradiction
  · rename_i c' r' hcons
    rw [h] at hcons
    cases hcons
    rfl

theorem run?_afterCommas_close {close : Char} {atEnd other : Fault} {body : α → Reader α} {a : α}
    {s r : List Char} (h : s.dropWhile isBlank = close :: r) :
    (afterCommas close atEnd other body a).run? s = some (a, r) := by
  unfold Reader.run? Reader.run
  rw [afterCommas, separator_eq _ _ _ h, if_pos rfl]
  rfl

theorem run_afterCommas_comma {close : Char} {atEnd other : Fault} {body : α → Reader α} {a : α}
    {s r : List Char} (hclose : ',' ≠ close) (h : s.dropWhile isBlank = ',' :: r) :
    (afterCommas close atEnd other body a).run s =
      (body a >>= afterCommas close atEnd other body).run r := by
  rw [run_bind]
  conv => lhs; unfold Reader.run
  rw [afterCommas, separator_eq _ _ _ h, if_neg hclose, if_pos rfl]
  unfold Reader.run
  dsimp only
  cases body a r with
  | error e => rfl
  | ok x =>
    dsimp only
    cases afterCommas close atEnd other body x.1 x.2.val <;> rfl

theorem run?_afterCommas_comma {close : Char} {atEnd other : Fault} {body : α → Reader α} {a : α}
    {s r : List Char} (hclose : ',' ≠ close) (h : s.dropWhile isBlank = ',' :: r) :
    (afterCommas close atEnd other body a).run? s =
      ((body a).run? r).bind fun x => (afterCommas close atEnd other body x.1).run? x.2 := by
  rw [← run?_bind]
  exact congrArg Except.toOption (run_afterCommas_comma hclose h)

def IsClose (c : Char) : Prop := c = ']' ∨ c = '}'

namespace IsClose

variable {close : Char} (h : IsClose close)

include h

theorem not_blank : isBlank close = false := by
  rcases h with rfl | rfl <;> rfl

theorem ne_comma : ',' ≠ close := by
  rcases h with rfl | rfl <;> decide

theorem ends (s : List Char) : Ends (close :: s) := by
  rcases h with rfl | rfl
  · exact Ends.bracket s
  · exact Ends.brace s

theorem dropWhile {b : List Char} (hb : Blanks b) (s : List Char) :
    (b ++ close :: s).dropWhile isBlank = close :: s := by
  rw [hb.dropWhile]
  exact dropWhile_of_head (by simp [h.not_blank])

end IsClose

theorem Blanks.dropWhile_comma {b : List Char} (hb : Blanks b) (s : List Char) :
    (b ++ ',' :: s).dropWhile isBlank = ',' :: s := by
  rw [hb.dropWhile]
  exact dropWhile_of_head (by simp [isBlank])

theorem Joined.After.ends {close : Char} (hclose : IsClose close) {items : List (List Char)}
    {s : List Char} (h : After close items s) (rest : List Char) : Ends (s ++ rest) := by
  cases h with
  | closed hb =>
    rw [List.append_assoc]
    exact Ends.of_blanks hb (hclose.ends rest)
  | comma hb _ _ =>
    rw [List.append_assoc]
    exact Ends.of_blanks hb (Ends.comma _)

/-- Reading on after commas carries the state over the items that follow. -/
theorem run?_afterCommas {close : Char} (hclose : IsClose close) (atEnd other : Fault)
    {body : σ → Reader σ} {R : β → List Char → Prop} {f : σ → β → Option σ} {xs : List β}
    {items : List (List Char)} {s : List Char} (hjoined : Joined.After close items s)
    (hitems : List.Forall₂ R xs items)
    (hbody : ∀ x ∈ xs, ∀ (a : σ) {b item rest : List Char}, Blanks b → R x item → Ends rest →
      (body a).run? (b ++ (item ++ rest)) = (f a x).map (·, rest))
    (a : σ) (rest : List Char) :
    (afterCommas close atEnd other body a).run? (s ++ rest) = (xs.foldlM f a).map (·, rest) := by
  induction hjoined generalizing xs a with
  | closed hb =>
    cases hitems
    rw [List.append_assoc]
    exact run?_afterCommas_close (hclose.dropWhile hb rest)
  | @comma b b' item items s hb hb' hafter ih =>
    obtain ⟨x, xs, hx, hxs, rfl⟩ := List.forall₂_cons_right_iff.mp hitems
    have hfirst := hbody x List.mem_cons_self a hb' hx (hafter.ends hclose rest)
    have hothers := fun a => ih hxs (fun y hy => hbody y (List.mem_cons_of_mem x hy)) a
    have hs : b ++ ',' :: (b' ++ item ++ s) ++ rest =
        b ++ ',' :: (b' ++ (item ++ (s ++ rest))) := by simp
    rw [hs, run?_afterCommas_comma hclose.ne_comma (hb.dropWhile_comma _), hfirst,
      List.foldlM_cons]
    cases f a x with
    | none => rfl
    | some c => exact hothers c

/-- From any text of the tree the reader gets the value, or fails if there is none. -/
structure Reads (p : Reader α) (t : Tree) (o : Option α) : Prop where
  run? {b s rest : List Char} : Blanks b → t.Spells s → Ends rest →
    p.run? (b ++ (s ++ rest)) = o.map (·, rest)

structure ReadsMember (p : Reader α) (t : Tree) (o : Option α) : Prop where
  run? {b b' s rest : List Char} : Blanks b → Blanks b' → t.Spells s → Ends rest →
    p.run? (b ++ ':' :: (b' ++ (s ++ rest))) = o.map (·, rest)

theorem Tree.Spells.dropWhile {t : Tree} {b s : List Char} (hb : Blanks b) (hs : t.Spells s)
    (rest : List Char) : (b ++ (s ++ rest)).dropWhile isBlank = s ++ rest := by
  obtain ⟨c, r, rfl, hc⟩ := hs.exists_cons
  rw [hb.dropWhile]
  apply dropWhile_of_head
  intro d hd
  cases hd
  exact isStart.not_blank hc

theorem dropWhile_of_start {b : List Char} (hb : Blanks b) {c : Char} (hc : isBlank c = false)
    (s : List Char) : (b ++ c :: s).dropWhile isBlank = c :: s := by
  rw [hb.dropWhile]
  exact dropWhile_of_head (by simp [hc])

theorem run_peek_start {b : List Char} (hb : Blanks b) {c : Char} (hc : isBlank c = false)
    (s : List Char) : peek.run (b ++ c :: s) = .ok (some c, c :: s) := by
  rw [run_peek, dropWhile_of_start hb hc]
  rfl

theorem run?_peek_start {b : List Char} (hb : Blanks b) {c : Char} (hc : isBlank c = false)
    (s : List Char) : peek.run? (b ++ c :: s) = some (some c, c :: s) :=
  congrArg Except.toOption (run_peek_start hb hc s)

theorem Joined.After.run?_peek_nil {close : Char} (hclose : IsClose close) {s : List Char}
    (h : After close [] s) (rest : List Char) :
    peek.run? (s ++ rest) = some (some close, close :: rest) := by
  cases h with
  | closed hb =>
    rw [List.append_assoc, List.cons_append]
    exact run?_peek_start hb hclose.not_blank _

theorem Joined.After.run?_peek_cons {close : Char} {item : List Char} {items : List (List Char)}
    {s : List Char} (h : After close (item :: items) s) (rest : List Char) :
    ∃ b s', Blanks b ∧ After close items s' ∧
      peek.run? (s ++ rest) = some (some ',', ',' :: (b ++ (item ++ (s' ++ rest)))) := by
  cases h with
  | @comma b b' _ _ s' hb hb' hafter =>
    refine ⟨b', s', hb', hafter, ?_⟩
    have hs : b ++ ',' :: (b' ++ item ++ s') ++ rest =
        b ++ ',' :: (b' ++ (item ++ (s' ++ rest))) := by simp
    rw [hs]
    exact run?_peek_start hb rfl _

theorem run?_colon {b : List Char} (hb : Blanks b) (s : List Char) :
    colon.run? (b ++ ':' :: s) = some ((), s) := by
  unfold colon
  rw [run?_bind, run?_peek_start hb (by rfl)]
  rfl

theorem Reads.afterColon {p : Reader α} {t : Tree} {o : Option α} (h : Reads p t o) :
    ReadsMember (do colon; p) t o := by
  constructor
  intro b b' s rest hb hb' hs hrest
  rw [run?_bind, run?_colon hb]
  exact h.run? hb' hs hrest

theorem Reads.map {p : Reader α} {t : Tree} {o : Option α} (h : Reads p t o) (f : α → β) :
    Reads (do pure (f (← p))) t (o.map f) := by
  constructor
  intro b s rest hb hs hrest
  rw [run?_bind, h.run? hb hs hrest]
  cases o <;> rfl

theorem Reads.ofExcept {p : Reader α} {t : Tree} {o : Option α} (h : Reads p t o)
    (f : α → Except Fault β) :
    Reads (do ofExcept (f (← p))) t (o.bind fun a => (f a).toOption) := by
  constructor
  intro b s rest hb hs hrest
  rw [run?_bind, h.run? hb hs hrest]
  cases o with
  | none => rfl
  | some a => simp

theorem Reads.ofList {p : Reader α} {ts : List Tree} {o : Option α}
    (h : ∀ {b r rest : List Char} {items : List (List Char)}, Blanks b →
      List.Forall₂ Tree.Spells ts items → Joined ']' items r →
        p.run? (b ++ '[' :: (r ++ rest)) = o.map (·, rest)) :
    Reads p (.list ts) o := by
  constructor
  intro b s rest hb hs _
  rw [Tree.Spells] at hs
  obtain ⟨items, r, hitems, hjoined, rfl⟩ := hs
  rw [List.cons_append]
  exact h hb (Tree.spellItems_iff.mp hitems) hjoined

theorem Reads.ofObject {p : Reader α} {ms : List (Pieces × Tree)} {o : Option α}
    (h : ∀ {b r rest : List Char} {items : List (List Char)}, Blanks b →
      List.Forall₂ Tree.SpellsMember ms items → Joined '}' items r →
        p.run? (b ++ '{' :: (r ++ rest)) = o.map (·, rest)) :
    Reads p (.object ms) o := by
  constructor
  intro b s rest hb hs _
  rw [Tree.Spells] at hs
  obtain ⟨items, r, hitems, hjoined, rfl⟩ := hs
  rw [List.cons_append]
  exact h hb (Tree.spellMembers_iff.mp hitems) hjoined

theorem mapM_cons_eq_some_iff {f : β → Option α} {x : β} {xs : List β} {ys : List α} :
    (x :: xs).mapM f = some ys ↔
      ∃ y rest, f x = some y ∧ xs.mapM f = some rest ∧ ys = y :: rest := by
  rw [List.mapM_cons]
  constructor
  · intro h
    obtain ⟨y, hy, h⟩ := Option.bind_eq_some_iff.mp h
    obtain ⟨rest, hrest, h⟩ := Option.bind_eq_some_iff.mp h
    cases h
    exact ⟨y, rest, hy, hrest, rfl⟩
  · rintro ⟨y, rest, hy, hrest, rfl⟩
    rw [hy, hrest]
    rfl

theorem mapM_reverse {f : β → Option α} (xs : List β) (acc : List α) :
    xs.foldlM (fun acc x => (f x).map (· :: acc)) acc =
      (xs.mapM f).map fun as => as.reverse ++ acc := by
  induction xs generalizing acc with
  | nil => rfl
  | cons x xs ih =>
    rw [List.foldlM_cons, List.mapM_cons]
    cases f x with
    | none => rfl
    | some a =>
      simp only [Option.map_some, Option.bind_eq_bind, Option.bind_some]
      rw [ih]
      cases xs.mapM f <;> simp

theorem reads_nextItem {item : Reader α} {t : Tree} {o : Option α} (h : Reads item t o)
    (sofar : List α) : Reads (nextItem item sofar) t (o.map (· :: sofar)) := by
  constructor
  intro b s rest hb hs hrest
  have hitem := h.run? Blanks.nil hs hrest
  obtain ⟨c, r, rfl, hc⟩ := hs.exists_cons
  have hbracket := Tree.isStart.ne_bracket hc
  unfold nextItem
  rw [run?_bind, List.cons_append, run?_peek_start hb (Tree.isStart.not_blank hc)]
  simp only [Option.bind_some, run?_bind]
  rw [← List.cons_append, ← List.nil_append (c :: r ++ rest), hitem]
  cases o <;> rfl

theorem run?_moreItems {item : Reader α} {o : Tree → Option α} {ts : List Tree}
    {items : List (List Char)} {s : List Char} (hitems : List.Forall₂ Tree.Spells ts items)
    (hafter : Joined.After ']' items s) (h : ∀ t ∈ ts, Reads item t (o t)) (sofar : List α)
    (rest : List Char) :
    (moreItems item sofar).run? (s ++ rest) =
      (ts.mapM o).map fun as => (sofar ++ as, rest) := by
  unfold moreItems
  rw [run?_bind, run?_afterCommas (.inl rfl) _ _ hafter hitems
    (fun t ht sofar _ _ _ hb hs hrest => (reads_nextItem (h t ht) sofar).run? hb hs hrest),
    mapM_reverse]
  cases ts.mapM o <;> simp

theorem run?_items {item : Reader α} {o : Tree → Option α} {ts : List Tree}
    {items : List (List Char)} {s : List Char} (hitems : List.Forall₂ Tree.Spells ts items)
    (hjoined : Joined ']' items s) (h : ∀ t ∈ ts, Reads item t (o t)) (rest : List Char) :
    (Json.items item).run? (s ++ rest) = (ts.mapM o).map (·, rest) := by
  unfold Json.items
  cases hjoined with
  | empty hb =>
    cases hitems
    rw [run?_bind, List.append_assoc, List.cons_append, run?_peek_start hb (by rfl)]
    rfl
  | @items b first others s hb hafter =>
    obtain ⟨t, ts, ht, hts, rfl⟩ := List.forall₂_cons_right_iff.mp hitems
    have hfirst := (h t List.mem_cons_self).run? Blanks.nil ht (hafter.ends (.inl rfl) rest)
    have hothers (a : α) :=
      run?_moreItems hts hafter (fun t ht => h t (List.mem_cons_of_mem _ ht)) [a] rest
    obtain ⟨c, r, rfl, hc⟩ := ht.exists_cons
    have hbracket := Tree.isStart.ne_bracket hc
    have hs : b ++ (c :: r) ++ s ++ rest = b ++ c :: (r ++ (s ++ rest)) := by simp
    rw [run?_bind, hs, run?_peek_start hb (Tree.isStart.not_blank hc), List.mapM_cons]
    simp only [Option.bind_some, run?_bind]
    rw [← List.cons_append, ← List.nil_append (c :: r ++ (s ++ rest)), hfirst]
    cases o t with
    | none => rfl
    | some a =>
      simp only [Option.map_some, Option.bind_some, hothers]
      cases ts.mapM o <;> rfl

/-- The members with their names; none if a name has a surrogate without its partner. -/
def Tree.named? (ms : List (Pieces × Tree)) : Option (List (String × Tree)) :=
  ms.mapM fun m => m.1.text?.map (·, m.2)

theorem Tree.named?_cons {m : Pieces × Tree} {ms : List (Pieces × Tree)}
    {ns : List (String × Tree)} :
    named? (m :: ms) = some ns ↔
      ∃ k rest, m.1.text? = some k ∧ named? ms = some rest ∧ ns = (k, m.2) :: rest := by
  unfold named?
  simp only [mapM_cons_eq_some_iff, Option.map_eq_some_iff]
  constructor
  · rintro ⟨n, rest, ⟨k, hk, rfl⟩, hrest, rfl⟩
    exact ⟨k, rest, hk, hrest, rfl⟩
  · rintro ⟨k, rest, hk, hrest, rfl⟩
    exact ⟨_, rest, ⟨k, hk, rfl⟩, hrest, rfl⟩

theorem Tree.named?_append (ms ms' : List (Pieces × Tree)) :
    named? (ms ++ ms') = (named? ms).bind fun ns => (named? ms').map (ns ++ ·) := by
  unfold named?
  rw [List.mapM_append]
  simp only [Option.pure_def, Option.bind_eq_bind, Option.map_eq_bind]
  rfl

theorem Tree.named?_insert {m : Pieces × Tree} {name : String} (hm : m.1.text? = some name)
    (before after : List (Pieces × Tree)) :
    named? (before ++ m :: after) =
      (named? before).bind fun ns => (named? after).map fun ns' => ns ++ (name, m.2) :: ns' := by
  have hcons : named? (m :: after) = (named? after).map ((name, m.2) :: ·) := by
    unfold named?
    rw [List.mapM_cons, hm]
    simp only [Option.pure_def, Option.bind_eq_bind, Option.bind_some, Option.map_eq_bind]
    rfl
  rw [named?_append, hcons]
  simp only [Option.map_map]
  rfl

theorem run?_nextMember {step : σ → String → Reader σ} {f : σ → String × Tree → Option σ}
    {m : Pieces × Tree} {s : List Char} (hs : Tree.SpellsMember m s)
    (h : ∀ a k, m.1.text? = some k → ReadsMember (step a k) m.2 (f a (k, m.2))) (a : σ)
    {b rest : List Char} (hb : Blanks b) (hrest : Ends rest) :
    (nextMember step a).run? (b ++ (s ++ rest)) =
      ((m.1.text?.map (·, m.2)).bind (f a)).map (·, rest) := by
  obtain ⟨b₁, b₂, r, hb₁, hb₂, hr, rfl⟩ := hs
  unfold nextMember
  rw [Tree.append_member, run?_bind, run?_peek_start hb (by rfl)]
  simp only [Option.bind_some, run?_bind, run?_eat, List.tail_cons, Pieces.run?_text]
  cases hk : m.1.text? with
  | none => rfl
  | some k => exact (h a k hk).run? hb₁ hb₂ hr hrest

theorem run_members_quote {step : σ → String → Reader σ} {start : σ} {b : List Char}
    (hb : Blanks b) (s : List Char) :
    (members step start).run (b ++ '"' :: s) =
      (nextMember step start >>=
        afterCommas '}' .endInObject .expectedCommaOrBrace (nextMember step)).run
          (b ++ '"' :: s) := by
  unfold members nextMember
  simp only [run_bind, run_peek_start hb (show isBlank '"' = false from rfl), run_eat,
    List.tail_cons]
  cases text.run s <;> rfl

theorem run?_members_quote {step : σ → String → Reader σ} {start : σ} {b : List Char}
    (hb : Blanks b) (s : List Char) :
    (members step start).run? (b ++ '"' :: s) =
      ((nextMember step start).run? (b ++ '"' :: s)).bind fun x =>
        (afterCommas '}' .endInObject .expectedCommaOrBrace (nextMember step) x.1).run? x.2 := by
  rw [← run?_bind]
  exact congrArg Except.toOption (run_members_quote hb s)

theorem foldlM_bind {f : σ → α → Option σ} {g : β → Option α} (xs : List β) (start : σ) :
    xs.foldlM (fun a x => (g x).bind (f a)) start = (xs.mapM g).bind (·.foldlM f start) := by
  induction xs generalizing start with
  | nil => rfl
  | cons x xs ih =>
    rw [List.foldlM_cons, List.mapM_cons]
    cases g x with
    | none => rfl
    | some y =>
      simp only [Option.bind_eq_bind, Option.bind_some, ih, Option.bind_assoc]
      cases xs.mapM g with
      | none => cases f start y <;> rfl
      | some ys => rfl

theorem run?_members {step : σ → String → Reader σ} {f : σ → String × Tree → Option σ}
    {ms : List (Pieces × Tree)} {items : List (List Char)} {s : List Char}
    (hitems : List.Forall₂ Tree.SpellsMember ms items) (hjoined : Joined '}' items s)
    (h : ∀ m ∈ ms, ∀ a k, m.1.text? = some k → ReadsMember (step a k) m.2 (f a (k, m.2)))
    (start : σ) (rest : List Char) :
    (members step start).run? (s ++ rest) =
      ((Tree.named? ms).bind (·.foldlM f start)).map (·, rest) := by
  unfold Tree.named?
  rw [← foldlM_bind]
  cases hjoined with
  | empty hb =>
    cases hitems
    unfold members
    rw [run?_bind, List.append_assoc, List.cons_append, run?_peek_start hb (by rfl)]
    rfl
  | @items b first others s hb hafter =>
    obtain ⟨m, ms, hm, hms, rfl⟩ := List.forall₂_cons_right_iff.mp hitems
    have hfirst := run?_nextMember hm (h m List.mem_cons_self) start hb
      (hafter.ends (.inr rfl) rest)
    have hothers (a : σ) :=
      run?_afterCommas (.inr rfl) .endInObject .expectedCommaOrBrace hafter hms
        (fun m' hm' a _ _ _ hb hs hrest =>
          run?_nextMember hs (h m' (List.mem_cons_of_mem _ hm')) a hb hrest) a rest
    obtain ⟨r, rfl⟩ := hm.exists_cons
    have hs : b ++ ('"' :: r) ++ s ++ rest = b ++ '"' :: (r ++ (s ++ rest)) := by simp
    rw [hs, run?_members_quote hb, ← List.cons_append, hfirst, List.foldlM_cons]
    cases (m.1.text?.map (·, m.2)).bind (f start) with
    | none => rfl
    | some a => exact hothers a

theorem Reads.ofItems {p : Reader α} {item : Reader β} {finish : List β → α}
    (hp : ∀ b s, Blanks b →
      p.run? (b ++ '[' :: s) = ((Json.items item).run? s).map fun x => (finish x.1, x.2))
    {ts : List Tree} {o : Tree → Option β} (h : ∀ t ∈ ts, Reads item t (o t)) :
    Reads p (.list ts) ((ts.mapM o).map finish) := by
  refine Reads.ofList fun {b r rest items} hb hitems hjoined => ?_
  rw [hp _ _ hb, run?_items hitems hjoined h]
  cases ts.mapM o <;> rfl

theorem Reads.ofMembers {p : Reader α} {step : σ → String → Reader σ} {start : σ}
    {finish : σ → Option α}
    (hp : ∀ b s, Blanks b → p.run? (b ++ '{' :: s) =
      ((members step start).run? s).bind fun x => (finish x.1).map (·, x.2))
    {ms : List (Pieces × Tree)} {f : σ → String × Tree → Option σ}
    (h : ∀ m ∈ ms, ∀ a k, m.1.text? = some k → ReadsMember (step a k) m.2 (f a (k, m.2))) :
    Reads p (.object ms) (((Tree.named? ms).bind (·.foldlM f start)).bind finish) := by
  refine Reads.ofObject fun {b r rest items} hb hitems hjoined => ?_
  rw [hp _ _ hb, run?_members hitems hjoined h]
  cases (Tree.named? ms).bind (·.foldlM f start) <;> rfl

theorem run?_word (w rest : List Char) : (word w).run? (w ++ rest) = some ((), rest) := by
  induction w with
  | nil => rfl
  | cons c w ih =>
    unfold word
    simp [ih]

theorem run?_valueWith_list (onList onObject : Reader Value) {b : List Char} (hb : Blanks b)
    (s : List Char) : (valueWith onList onObject).run? (b ++ '[' :: s) = onList.run? s := by
  unfold valueWith
  rw [run?_bind, run?_peek_start hb (by rfl)]
  simp

theorem run?_valueWith_object (onList onObject : Reader Value) {b : List Char} (hb : Blanks b)
    (s : List Char) : (valueWith onList onObject).run? (b ++ '{' :: s) = onObject.run? s := by
  unfold valueWith
  rw [run?_bind, run?_peek_start hb (by rfl)]
  simp

def Tree.IsScalar : Tree → Prop
  | list _ => False
  | object _ => False
  | _ => True

theorem isDigit_ne {c : Char} (h : isDigit c = true) :
    c ≠ 'n' ∧ c ≠ 't' ∧ c ≠ 'f' ∧ c ≠ '"' ∧ c ≠ '[' ∧ c ≠ '{' ∧ c ≠ '-' := by
  refine ⟨?_, ?_, ?_, ?_, ?_, ?_, ?_⟩ <;> (rintro rfl; contradiction)

theorem Tree.Spells.ne_opening {t : Tree} (ht : t.IsScalar) {c : Char} {r : List Char}
    (hs : t.Spells (c :: r)) : c ≠ '[' ∧ c ≠ '{' := by
  cases t with
  | null =>
    rw [Tree.Spells] at hs
    cases hs
    decide
  | boolean b =>
    cases b <;>
    · rw [Tree.Spells] at hs
      cases hs
      decide
  | string ps =>
    rw [Tree.Spells] at hs
    cases hs
    decide
  | number n =>
    rcases hs.number_start with rfl | hdigit
    · decide
    · obtain ⟨-, -, -, -, hlist, hobject, -⟩ := isDigit_ne hdigit
      exact ⟨hlist, hobject⟩
  | list ts => exact ht.elim
  | object ms => exact ht.elim

theorem Tree.Spells.ne_n {t : Tree} (ht : t ≠ .null) {c : Char} {r : List Char}
    (hs : t.Spells (c :: r)) : c ≠ 'n' := by
  cases t with
  | null => contradiction
  | boolean b =>
    cases b <;>
    · rw [Tree.Spells] at hs
      cases hs
      decide
  | string ps =>
    rw [Tree.Spells] at hs
    cases hs
    decide
  | number n =>
    rcases hs.number_start with rfl | hdigit
    · decide
    · exact (isDigit_ne hdigit).1
  | list ts =>
    rw [Tree.Spells] at hs
    obtain ⟨items, r, -, -, hs⟩ := hs
    cases hs
    decide
  | object ms =>
    rw [Tree.Spells] at hs
    obtain ⟨items, r, -, -, hs⟩ := hs
    cases hs
    decide

theorem Reads.ofScalar {p : Reader α} {t : Tree} (ht : t.IsScalar)
    (h : ∀ {b s : List Char} {c : Char}, Blanks b → isBlank c = false → c ≠ '[' → c ≠ '{' →
      p.run? (b ++ c :: s) = none) :
    Reads p t none := by
  constructor
  intro b s rest hb hs _
  obtain ⟨c, r, rfl, hc⟩ := hs.exists_cons
  obtain ⟨hlist, hobject⟩ := hs.ne_opening ht
  exact h hb (Tree.isStart.not_blank hc) hlist hobject

theorem reads_valueWith_number (onList onObject : Reader Value) (n : Literal) :
    Reads (valueWith onList onObject) (.number n) ((Tree.number n).value? 0) := by
  constructor
  intro b s rest hb hs hrest
  rw [Tree.Spells] at hs
  subst hs
  have hnumber := n.run?_number hrest
  unfold valueWith Literal.chars
  cases hneg : n.negative with
  | true =>
    rw [hneg] at hnumber
    rw [if_pos rfl, List.cons_append, run?_bind, run?_peek_start hb (by rfl)]
    simp only [Option.bind_some, run?_bind, run?_eat, List.tail_cons, hnumber, Tree.value?]
    cases n.read <;> rfl
  | false =>
    rw [hneg] at hnumber
    obtain ⟨c, r, hc, hdigit⟩ := n.whole.exists_cons
    obtain ⟨hn, ht, hf, hquote, hlist, hobject, hminus⟩ := isDigit_ne hdigit
    have hblank : isBlank c = false := Tree.isStart.not_blank (by simp [Tree.isStart, hdigit])
    have hs : n.magnitudeChars ++ rest = c :: (r ++ Literal.fractionChars n.fraction ++
        Literal.exponentChars n.exponent ++ rest) := by
      simp [Literal.magnitudeChars, hc]
    rw [if_neg (by simp), hs, run?_bind, run?_peek_start hb hblank, ← hs]
    simp only [Option.bind_some, hdigit, if_true, run?_bind, hnumber, Tree.value?]
    cases n.read <;> rfl

theorem reads_valueWith (onList onObject : Reader Value) {t : Tree} (ht : t.IsScalar) :
    Reads (valueWith onList onObject) t (t.value? 0) := by
  cases t with
  | null =>
    constructor
    intro b s rest hb hs hrest
    rw [Tree.Spells] at hs
    subst hs
    unfold valueWith
    rw [run?_bind, List.cons_append, run?_peek_start hb (by rfl)]
    simp only [Option.bind_some, run?_bind, run?_eat, List.tail_cons, Reader.null, run?_word]
    rfl
  | boolean v =>
    constructor
    intro b s rest hb hs hrest
    cases v <;>
    · rw [Tree.Spells] at hs
      subst hs
      unfold valueWith
      rw [run?_bind, List.cons_append, run?_peek_start hb (by rfl)]
      simp only [Option.bind_some, run?_bind, run?_eat, List.tail_cons, Reader.true,
        Reader.false, run?_word]
      rfl
  | string ps =>
    constructor
    intro b s rest hb hs hrest
    rw [Tree.Spells] at hs
    subst hs
    have hs : ps.quoted ++ rest = '"' :: (ps.chars ++ '"' :: rest) := by simp [Pieces.quoted]
    unfold valueWith
    rw [hs, run?_bind, run?_peek_start hb (by rfl)]
    simp only [Option.bind_some, run?_bind, run?_eat, List.tail_cons, Pieces.run?_text]
    rw [Tree.value?]
    cases ps.text? <;> rfl
  | number n => exact reads_valueWith_number onList onObject n
  | list ts => exact ht.elim
  | object ms => exact ht.elim

theorem Tree.value?_scalar {t : Tree} (ht : t.IsScalar) (depth : Nat) :
    t.value? depth = t.value? 0 := by
  cases t <;> first | exact ht.elim | rw [value?, value?]

theorem Tree.value?_ne_null {t : Tree} (ht : t ≠ .null) (depth : Nat) :
    t.value? depth ≠ some .null := by
  cases t with
  | null => contradiction
  | list ts => cases depth <;> simp [value?]
  | object ms => cases depth <;> simp [value?]
  | boolean b => simp [value?]
  | number n => simp [value?]
  | string ps => simp [value?]

theorem reads_value_scalar (t : Tree) (ht : t.IsScalar) (depth : Nat) :
    Reads (value depth) t (t.value? depth) := by
  rw [Tree.value?_scalar ht]
  cases depth <;> (rw [value]; exact reads_valueWith _ _ ht)

theorem reads_value (t : Tree) (depth : Nat) : Reads (value depth) t (t.value? depth) := by
  induction t generalizing depth with
  | list ts ih =>
    cases depth with
    | zero =>
      rw [value, Tree.value?]
      exact Reads.ofList fun hb _ _ => run?_valueWith_list _ _ hb _
    | succ depth =>
      rw [value, Tree.value?, Tree.itemValues?_eq]
      refine Reads.ofItems (fun b s hb => ?_) fun t ht => ih t ht depth
      rw [run?_valueWith_list _ _ hb, run?_bind]
      cases (items (value depth)).run? s <;> rfl
  | object ms ih =>
    cases depth with
    | zero =>
      rw [value, Tree.value?]
      exact Reads.ofObject fun hb _ _ => run?_valueWith_object _ _ hb _
    | succ depth =>
      let f (sofar : List (String × Value)) (m : String × Tree) :=
        (m.2.value? depth).map fun v => (m.1, v) :: sofar
      have hstep (m : Pieces × Tree) (hm : m ∈ ms) (sofar : List (String × Value)) (k : String)
          (_ : m.1.text? = some k) : ReadsMember _ m.2 (f sofar (k, m.2)) :=
        ((ih m hm depth).map fun v => (k, v) :: sofar).afterColon
      have hfold : (fun sofar (m : Pieces × Tree) => (m.1.text?.map (·, m.2)).bind (f sofar)) =
          fun sofar m => (Tree.memberValue? depth m).map (· :: sofar) := by
        funext sofar m
        simp only [f, Tree.memberValue?]
        cases m.1.text? with
        | none => rfl
        | some k => cases h : m.2.value? depth <;> simp [h]
      have hvalue : (Tree.object ms).value? (depth + 1) =
          ((Tree.named? ms).bind (·.foldlM f [])).bind fun vs => some (.object vs.reverse) := by
        rw [Tree.named?, ← foldlM_bind, hfold, mapM_reverse, Tree.value?, Tree.memberValues?_eq]
        cases ms.mapM (Tree.memberValue? depth) <;> simp
      rw [value, hvalue]
      refine Reads.ofMembers (fun b s hb => ?_) hstep
      rw [run?_valueWith_object _ _ hb, run?_bind]
      rfl
  | null => exact reads_value_scalar .null trivial depth
  | boolean b => exact reads_value_scalar (.boolean b) trivial depth
  | number n => exact reads_value_scalar (.number n) trivial depth
  | string ps => exact reads_value_scalar (.string ps) trivial depth

end LabelPress.Json
