import LabelPress.Proofs.Document.Label

/-! Records written as lists. A list gives the fields in order and may end before the last one. It
says the same as the object in which each item has the name of its field. -/
namespace LabelPress

namespace Json

open Reader hiding true false null

variable {α β : Type}

/-- The texts of a list that go on after an item, or before the first one. -/
def Tree.SpellsRest (first : Bool) (ts : List Tree) (s : List Char) : Prop :=
  ∃ items, List.Forall₂ Spells ts items ∧
    if first then Joined ']' items s else Joined.After ']' items s

/-- From there the reader gets the value, or fails if there is none. -/
structure ReadsRest (first : Bool) (p : Reader α) (ts : List Tree) (o : Option α) : Prop where
  run? {s : List Char} (rest : List Char) : Tree.SpellsRest first ts s →
    p.run? (s ++ rest) = o.map (·, rest)

def itemAt? (read : Tree → Option α) (default : α) : List Tree → Option α
  | [] => some default
  | t :: _ => read t

theorem Tree.isStart.ne_comma {c : Char} (h : isStart c = true) : c ≠ ',' := by
  rintro rfl
  contradiction

section

variable [FromText α] {depth : Nat} {read : Tree → Option α}
  (hread : ∀ t, Reads (FromText.read depth) t (read t))

include hread

theorem run?_itemOr_first (default : α) {ts : List Tree} {s : List Char}
    (hs : Tree.SpellsRest true ts s) (rest : List Char) :
    ∃ s', Tree.SpellsRest false ts.tail s' ∧
      (itemOr depth true default).run? (s ++ rest) =
        (itemAt? read default ts).map (·, s' ++ rest) := by
  obtain ⟨items, hitems, hjoined⟩ := hs
  rw [if_pos rfl] at hjoined
  cases hjoined with
  | empty hb =>
    cases hitems
    refine ⟨[']'], ⟨[], .nil, .closed Blanks.nil⟩, ?_⟩
    unfold itemOr
    rw [List.append_assoc, List.cons_append, run?_bind, run?_peek_start hb (by rfl)]
    rfl
  | @items b item items s' hb hafter =>
    obtain ⟨t, ts, ht, hts, rfl⟩ := List.forall₂_cons_right_iff.mp hitems
    refine ⟨s', ⟨items, hts, hafter⟩, ?_⟩
    have hitem := (hread t).run? Blanks.nil ht (hafter.ends (.inl rfl) rest)
    obtain ⟨c, r, rfl, hc⟩ := ht.exists_cons
    have hbracket := Tree.isStart.ne_bracket hc
    have hcomma := Tree.isStart.ne_comma hc
    have hs : b ++ (c :: r) ++ s' ++ rest = b ++ c :: (r ++ (s' ++ rest)) := by simp
    unfold itemOr
    rw [hs, run?_bind, run?_peek_start hb (Tree.isStart.not_blank hc), Option.bind_some]
    simpa [itemAt?] using hitem

theorem run?_itemOr_next (default : α) {ts : List Tree} {s : List Char}
    (hs : Tree.SpellsRest false ts s) (rest : List Char) :
    ∃ s', Tree.SpellsRest false ts.tail s' ∧
      (itemOr depth false default).run? (s ++ rest) =
        (itemAt? read default ts).map (·, s' ++ rest) := by
  obtain ⟨items, hitems, hafter⟩ := hs
  rw [if_neg (by simp)] at hafter
  cases hitems with
  | nil =>
    refine ⟨[']'], ⟨[], .nil, .closed Blanks.nil⟩, ?_⟩
    unfold itemOr
    rw [run?_bind, hafter.run?_peek_nil (.inl rfl)]
    rfl
  | @cons t item ts items ht hts =>
    obtain ⟨b, s', hb, hafter', hpeek⟩ := hafter.run?_peek_cons rest
    refine ⟨s', ⟨items, hts, hafter'⟩, ?_⟩
    have hitem := (hread t).run? Blanks.nil ht (hafter'.ends (.inl rfl) rest)
    obtain ⟨c, r, rfl, hc⟩ := ht.exists_cons
    have hbracket := Tree.isStart.ne_bracket hc
    unfold itemOr
    rw [run?_bind, hpeek, Option.bind_some]
    simp only [Bool.false_eq_true, if_false, run?_bind, run?_eat, List.tail_cons, Option.bind_some,
      List.cons_append, run?_peek_start hb (Tree.isStart.not_blank hc)]
    simpa [itemAt?] using hitem

theorem run?_itemOr (first : Bool) (default : α) {ts : List Tree} {s : List Char}
    (hs : Tree.SpellsRest first ts s) (rest : List Char) :
    ∃ s', Tree.SpellsRest false ts.tail s' ∧
      (itemOr depth first default).run? (s ++ rest) =
        (itemAt? read default ts).map (·, s' ++ rest) := by
  cases first with
  | true => exact run?_itemOr_first hread default hs rest
  | false => exact run?_itemOr_next hread default hs rest

theorem ReadsRest.itemOr {first : Bool} {default : α} {ts : List Tree} {next : α → Reader β}
    {o : α → Option β} (h : ∀ a, ReadsRest false (next a) ts.tail (o a)) :
    ReadsRest first (do let a ← itemOr depth first default; next a) ts
      ((itemAt? read default ts).bind o) := by
  constructor
  intro s rest hs
  obtain ⟨s', hs', hitem⟩ := run?_itemOr hread first default hs rest
  rw [run?_bind, hitem]
  cases itemAt? read default ts with
  | none => rfl
  | some a => exact (h a).run? rest hs'

end

theorem ReadsRest.listEnd (ts : List Tree) (a : α) :
    ReadsRest false (do listEnd; pure a) ts (if ts = [] then some a else none) := by
  constructor
  rintro s rest ⟨items, hitems, hafter⟩
  rw [if_neg (by simp)] at hafter
  unfold Json.listEnd
  cases hitems with
  | nil =>
    simp only [run?_bind, hafter.run?_peek_nil (.inl rfl)]
    rfl
  | @cons t item ts items ht hts =>
    obtain ⟨b, s', hb, -, hpeek⟩ := hafter.run?_peek_cons rest
    obtain ⟨c, r, rfl, hc⟩ := ht.exists_cons
    have hbracket := Tree.isStart.ne_bracket hc
    simp only [run?_bind, hpeek, Option.bind_some, run?_eat, List.tail_cons, List.cons_append,
      run?_peek_start hb (Tree.isStart.not_blank hc)]
    split <;> rfl

theorem Reads.ofListed {name : String} {depth : Nat} {ofObject ofList : Nat → Reader α}
    {ts : List Tree} {o : Option α} (h : ReadsRest true (ofList depth) ts o) :
    Reads (readObjectOrList name (depth + 1) ofObject ofList) (.list ts) o := by
  refine Reads.ofList fun {b r rest items} hb hitems hjoined => ?_
  unfold readObjectOrList
  rw [run?_bind, run?_peek_start hb (by rfl)]
  simp only [Option.bind_some, enter, run?_bind, run?_eat, List.tail_cons]
  exact h.run? rest ⟨items, hitems, hjoined⟩

theorem Reads.notRecord {name : String} {depth : Nat} {ofObject ofList : Nat → Reader α} {t : Tree}
    (ht : t.IsScalar) : Reads (readObjectOrList name depth ofObject ofList) t none := by
  refine Reads.ofScalar ht fun hb hblank hlist hobject => ?_
  unfold readObjectOrList
  rw [run?_bind, run?_peek_start hb hblank, Option.bind_some]
  split <;> simp_all

/-- The items of a list with the names of the fields; none if there are more than fields. -/
def Tree.listed? (names : List String) (ts : List Tree) : Option (List (String × Tree)) :=
  if ts.length ≤ names.length then some (names.zip ts) else none

theorem Tree.listed?_eq_none {names : List String} {ts : List Tree}
    (h : names.length < ts.length) : listed? names ts = none :=
  if_neg (Nat.not_le.mpr h)

end Json

open Json

namespace PrinterConfig

theorem reads_list {density? : Tree → Option Density} {font? : Tree → Option (Option Font)}
    {depth : Nat} (hdensity : ∀ t, Reads (FromText.read depth) t (density? t))
    (hfont : ∀ t, Reads (FromText.read depth) t (font? t)) (ts : List Tree) :
    Reads (FromText.read (depth + 1)) (.list ts)
      ((Tree.listed? fieldNames ts).bind (ofTree? density? font?)) := by
  have hrest : ReadsRest true (readItems depth) ts
      ((itemAt? density? default ts).bind fun density =>
        (itemAt? font? none ts.tail).bind fun defaultFont =>
          (itemAt? (Tree.readTree 0) none ts.tail.tail).bind fun defaultFontSize =>
            if ts.tail.tail.tail = [] then some { density, defaultFont, defaultFontSize }
            else none) :=
    .itemOr hdensity fun _ => .itemOr hfont fun _ =>
      .itemOr (fun t => reads_uint32Option t depth) fun _ => .listEnd _ _
  have hread : Reads (FromText.read (depth + 1) : Reader PrinterConfig) (.list ts) _ :=
    .ofListed hrest
  rcases ts with _ | ⟨t₁, _ | ⟨t₂, _ | ⟨t₃, _ | ⟨t₄, ts⟩⟩⟩⟩
  case cons.cons.cons.cons =>
    have hlong : fieldNames.length < (t₁ :: t₂ :: t₃ :: t₄ :: ts).length := by
      simp only [fieldNames, List.length_cons, List.length_nil]
      omega
    rw [Tree.listed?_eq_none hlong]
    simpa using hread
  all_goals simpa [itemAt?, Tree.listed?, fieldNames, ofTree?, field?] using hread

end PrinterConfig

namespace Label

def fieldNames : List String := ["width", "height", "print_mode", "config", "elements"]

theorem reads_list {mode? : Tree → Option PrintMode} {config? : Tree → Option PrinterConfig}
    {elements? : Tree → Option (List Element)} {depth : Nat}
    (hmode : ∀ t, Reads (FromText.read depth) t (mode? t))
    (hconfig : ∀ t, Reads (FromText.read depth) t (config? t))
    (helements : ∀ t, Reads (FromText.read depth) t (elements? t)) (ts : List Tree) :
    Reads (FromText.read (depth + 1)) (.list ts)
      ((Tree.listed? fieldNames ts).bind (ofTree? mode? config? elements?)) := by
  have hrest : ReadsRest true (readItems depth) ts
      ((itemAt? (Tree.readTree 0) none ts).bind fun width =>
        (itemAt? (Tree.readTree 0) none ts.tail).bind fun height =>
          (itemAt? mode? default ts.tail.tail).bind fun printMode =>
            (itemAt? config? {} ts.tail.tail.tail).bind fun config =>
              (itemAt? elements? [] ts.tail.tail.tail.tail).bind fun elements =>
                if ts.tail.tail.tail.tail.tail = [] then
                  some { width, height, printMode, config, elements }
                else none) :=
    .itemOr (fun t => reads_int32Option t depth) fun _ =>
      .itemOr (fun t => reads_int32Option t depth) fun _ => .itemOr hmode fun _ =>
        .itemOr hconfig fun _ => .itemOr helements fun _ => .listEnd _ _
  have hread : Reads (FromText.read (depth + 1) : Reader Label) (.list ts) _ := .ofListed hrest
  rcases ts with _ | ⟨t₁, _ | ⟨t₂, _ | ⟨t₃, _ | ⟨t₄, _ | ⟨t₅, _ | ⟨t₆, ts⟩⟩⟩⟩⟩⟩
  case cons.cons.cons.cons.cons.cons =>
    have hlong : fieldNames.length < (t₁ :: t₂ :: t₃ :: t₄ :: t₅ :: t₆ :: ts).length := by
      simp only [fieldNames, List.length_cons, List.length_nil]
      omega
    rw [Tree.listed?_eq_none hlong]
    simpa using hread
  all_goals simpa [itemAt?, Tree.listed?, fieldNames, ofTree?, field?] using hread

end Label

end LabelPress
