import LabelPress.Element.Document
import LabelPress.Proofs.Document.Record
import LabelPress.Proofs.Json.Reading

/-! Fields read straight from the text. A scalar gives the same field there as its value does, for
every type that a field can have; an alternative may also be an object. -/
namespace LabelPress

namespace Json

open Reader hiding true false null
open Text hiding isBlank

variable {α β : Type}

@[simp] theorem run?_mismatch (expected : Expected) (s : List Char) :
    (mismatch expected : Reader α).run? s = none := by
  unfold mismatch
  rw [run?_bind, run?_look, Option.bind_some]
  dsimp only
  split <;> simp

theorem Reads.ofValue {p : Reader α} {f : Value → Option α}
    (h : ∀ s, p.run? s = ((value 0).run? s).bind fun x => (f x.1).map (·, x.2)) (t : Tree) :
    Reads p t ((t.value? 0).bind f) := by
  constructor
  intro b s rest hb hs hrest
  rw [h, (reads_value t 0).run? hb hs hrest]
  cases t.value? 0 <;> rfl

theorem toOption_error (e : Fault) : (Except.error e : Except Fault α).toOption = none := rfl

theorem run?_integer (kind : IntegerKind) (s : List Char) :
    kind.read.run? s =
      ((value 0).run? s).bind fun x => ((kind.ofValue x.1).toOption).map (·, x.2) := by
  unfold IntegerKind.read value valueWith
  rw [run?_bind, run?_bind, run?_peek, Option.bind_some, Option.bind_some]
  cases (s.dropWhile isBlank).head? with
  | none => simp
  | some c =>
    by_cases hminus : c = '-'
    · subst hminus
      simp [IntegerKind.ofValue, Option.bind_assoc]
    · by_cases hdigit : isDigit c = true
      · obtain ⟨hn, ht, hf, hquote, hlist, hobject, -⟩ := isDigit_ne hdigit
        simp [IntegerKind.ofValue, Option.bind_assoc, *]
      · by_cases hother : c ∈ ['n', 't', 'f', '"', '[', '{']
        · simp only [List.mem_cons, List.not_mem_nil, or_false] at hother
          rcases hother with rfl | rfl | rfl | rfl | rfl | rfl <;>
            simp [IntegerKind.ofValue, wrongType, Option.bind_assoc, toOption_error, hdigit]
        · simp only [List.mem_cons, List.not_mem_nil, or_false, not_or] at hother
          simp [hdigit, hother]

theorem run?_string (expected : Expected) (s : List Char) :
    (readString expected).run? s =
      ((value 0).run? s).bind fun x => (readValue x.1 : Option String).map (·, x.2) := by
  unfold readString value valueWith
  rw [run?_bind, run?_bind, run?_peek, Option.bind_some, Option.bind_some]
  cases (s.dropWhile isBlank).head? with
  | none => simp
  | some c =>
    by_cases hquote : c = '"'
    · subst hquote
      cases htext : text.run? (s.dropWhile isBlank).tail <;>
        simp [readValue, FromValue.ofValue, Except.toOption, htext]
    · by_cases hother : c ∈ ['n', 't', 'f', '[', '{', '-']
      · simp only [List.mem_cons, List.not_mem_nil, or_false] at hother
        rcases hother with rfl | rfl | rfl | rfl | rfl | rfl <;>
          simp [readValue, FromValue.ofValue, wrongType, Option.bind_assoc, toOption_error]
      · simp only [List.mem_cons, List.not_mem_nil, or_false, not_or] at hother
        by_cases hdigit : isDigit c = true <;>
          simp [hother, hdigit, readValue, FromValue.ofValue, wrongType, Option.bind_assoc,
            toOption_error]

theorem Reads.integer (kind : IntegerKind) (t : Tree) :
    Reads kind.read t ((t.value? 0).bind fun v => (kind.ofValue v).toOption) :=
  Reads.ofValue (run?_integer kind) t

theorem Reads.string (expected : Expected) (t : Tree) :
    Reads (readString expected) t ((t.value? 0).bind readValue) :=
  Reads.ofValue (run?_string expected) t

theorem run?_variant [Named α] (depth : Nat) {s : List Char}
    (h : (s.dropWhile isBlank).head? ≠ some '{') :
    (readVariant α depth).run? s =
      ((value 0).run? s).bind fun x => ((variantOfValue α x.1).toOption).map (·, x.2) := by
  unfold readVariant value valueWith
  rw [run?_bind, run?_bind, run?_peek, Option.bind_some, Option.bind_some]
  cases hc : (s.dropWhile isBlank).head? with
  | none => simp
  | some c =>
    have hobject : c ≠ '{' := fun he => h (he ▸ hc)
    by_cases hother : c ∈ ['n', 't', 'f', '"', '[', '-']
    · simp only [List.mem_cons, List.not_mem_nil, or_false] at hother
      rcases hother with rfl | rfl | rfl | rfl | rfl | rfl <;>
        simp [variantOfValue, wrongType, Option.bind_assoc, toOption_error]
    · simp only [List.mem_cons, List.not_mem_nil, or_false, not_or] at hother
      by_cases hdigit : isDigit c = true <;>
        simp [hother, hdigit, variantOfValue, wrongType, Option.bind_assoc, toOption_error]

theorem Reads.variant [Named α] {t : Tree} (ht : t.IsScalar) (depth : Nat) :
    Reads (readVariant α depth) t ((t.value? 0).bind fun v => (variantOfValue α v).toOption) := by
  constructor
  intro b s rest hb hs hrest
  have hhead : ((b ++ (s ++ rest)).dropWhile isBlank).head? ≠ some '{' := by
    obtain ⟨c, r, rfl, -⟩ := hs.exists_cons
    rw [hs.dropWhile hb]
    simpa using (hs.ne_opening ht).2
  rw [run?_variant depth hhead, (reads_value t 0).run? hb hs hrest]
  cases t.value? 0 <;> rfl

/-- The text of a tree and its value are read alike. -/
class ReadsTrees (α : Type) [FromText α] [FromValue α] : Prop where
  reads (t : Tree) (depth : Nat) :
    Reads (FromText.read depth : Reader α) t ((t.value? depth).bind readValue)

/-- The text of a scalar and its value are read alike. For alternatives that is all: an object that
writes one may have an empty object in place of the null as a value, but not as a text. -/
class ReadsScalars (α : Type) [FromText α] [FromValue α] : Prop where
  reads {t : Tree} (ht : t.IsScalar) (depth : Nat) :
    Reads (FromText.read depth : Reader α) t ((t.value? 0).bind readValue)

instance [FromText α] [FromValue α] [ReadsTrees α] : ReadsScalars α where
  reads {t} ht depth := by
    have h := ReadsTrees.reads (α := α) t depth
    rwa [Tree.value?_scalar ht] at h

theorem Tree.bind_value? {f : Value → Option α} (hlist : ∀ vs, f (.list vs) = none)
    (hobject : ∀ ms, f (.object ms) = none) (t : Tree) (depth : Nat) :
    (t.value? depth).bind f = (t.value? 0).bind f := by
  cases t with
  | list ts =>
    cases depth with
    | zero => rfl
    | succ depth =>
      rw [value?, value?]
      cases itemValues? depth ts <;> simp [hlist]
  | object ms =>
    cases depth with
    | zero => rfl
    | succ depth =>
      rw [value?, value?]
      cases memberValues? depth ms <;> simp [hobject]
  | _ => rw [value?, value?]

theorem Reads.integerAs {kind : IntegerKind} {f : Int → α} (t : Tree) :
    Reads (do pure (f (← kind.read))) t
      ((t.value? 0).bind fun v => ((kind.ofValue v).map f).toOption) := by
  have h := (Reads.integer kind t).map f
  rw [Option.map_bind] at h
  have hmap : (fun v => ((kind.ofValue v).map f).toOption) =
      Option.map f ∘ fun v => (kind.ofValue v).toOption := by
    funext v
    cases h : kind.ofValue v <;> simp [h, Except.map, Except.toOption]
  rw [hmap]
  exact h

instance : ReadsTrees Int32 where
  reads t depth := by
    rw [t.bind_value? (fun _ => rfl) (fun _ => rfl)]
    exact Reads.integerAs t

instance : ReadsTrees UInt32 where
  reads t depth := by
    rw [t.bind_value? (fun _ => rfl) (fun _ => rfl)]
    exact Reads.integerAs t

instance : ReadsTrees UInt8 where
  reads t depth := by
    rw [t.bind_value? (fun _ => rfl) (fun _ => rfl)]
    exact Reads.integerAs t

instance : ReadsTrees String where
  reads t depth := by
    rw [t.bind_value? (fun _ => rfl) (fun _ => rfl)]
    exact Reads.string _ t

instance : ReadsTrees Value where
  reads t depth := by
    have h := reads_value t depth
    cases hv : t.value? depth <;> rwa [hv] at h

instance [Named α] : ReadsScalars α where
  reads ht depth := Reads.variant ht depth

theorem Reads.option_none [FromText α] (depth : Nat) :
    Reads (FromText.read depth : Reader (Option α)) .null (some none) := by
  constructor
  intro b s rest hb hs hrest
  rw [Tree.Spells] at hs
  subst hs
  unfold FromText.read instFromTextOption
  dsimp only
  rw [List.cons_append, run?_bind, run?_peek_start hb (by rfl)]
  simp only [Option.bind_some, run?_bind, run?_eat, List.tail_cons, Reader.null, run?_word]
  rfl

theorem Reads.option_some [FromText α] {t : Tree} (ht : t ≠ .null) {depth : Nat} {o : Option α}
    (h : Reads (FromText.read depth) t o) :
    Reads (FromText.read depth : Reader (Option α)) t (o.map some) := by
  constructor
  intro b s rest hb hs hrest
  have hread := h.run? Blanks.nil hs hrest
  obtain ⟨c, r, rfl, hc⟩ := hs.exists_cons
  have hn : c ≠ 'n' := hs.ne_n ht
  unfold FromText.read instFromTextOption
  dsimp only
  rw [List.cons_append, run?_bind, run?_peek_start hb (Tree.isStart.not_blank hc)]
  simp only [Option.bind_some]
  split
  · rename_i hc
    exact absurd (Option.some.inj hc) hn
  · rw [run?_bind, ← List.cons_append, ← List.nil_append (c :: r ++ rest), hread]
    cases o <;> rfl

theorem bind_readValue_option [FromValue α] {o : Option Value} (ho : o ≠ some .null) :
    (o.bind readValue : Option (Option α)) = (o.bind readValue).map some := by
  cases o with
  | none => rfl
  | some v =>
    cases v <;> first
      | contradiction
      | exact toOption_map _ _

theorem Reads.option [FromText α] [FromValue α] {t : Tree} {depth valueDepth : Nat}
    (h : Reads (FromText.read depth : Reader α) t ((t.value? valueDepth).bind readValue)) :
    Reads (FromText.read depth : Reader (Option α)) t ((t.value? valueDepth).bind readValue) := by
  by_cases hnull : t = .null
  · subst hnull
    exact Reads.option_none depth
  · rw [bind_readValue_option (Tree.value?_ne_null hnull valueDepth)]
    exact Reads.option_some hnull h

instance [FromText α] [FromValue α] [ReadsTrees α] : ReadsTrees (Option α) where
  reads t depth := (ReadsTrees.reads t depth).option

instance [FromText α] [FromValue α] [ReadsScalars α] : ReadsScalars (Option α) where
  reads ht depth := (ReadsScalars.reads ht depth).option

def Tree.unit? : Tree → Option Unit
  | .null => some ()
  | _ => none

def Tree.alternative? [Named α] : Tree → Option α
  | .object [(k, t)] => (k.text?.bind Named.find?).bind fun a => t.unit?.map fun _ => a
  | .object _ => none
  | t => (t.value? 0).bind fun v => (variantOfValue α v).toOption

theorem toOption_variantNamed [Named α] (s : String) :
    (variantNamed α s).toOption = Named.find? s := by
  unfold variantNamed
  cases (Named.find? s : Option α) <;> rfl

theorem Reads.unit (t : Tree) : Reads readUnit t t.unit? := by
  constructor
  intro b s rest hb hs hrest
  by_cases hnull : t = .null
  · subst hnull
    rw [Tree.Spells] at hs
    subst hs
    unfold readUnit
    rw [List.cons_append, run?_bind, run?_peek_start hb (by rfl)]
    simp only [Option.bind_some, run?_bind, run?_eat, List.tail_cons, Reader.null, run?_word]
    rfl
  · obtain ⟨c, r, rfl, hc⟩ := hs.exists_cons
    have hn : c ≠ 'n' := hs.ne_n hnull
    have hnone : t.unit? = none := by
      cases t <;> first | contradiction | rfl
    unfold readUnit
    rw [hnone, List.cons_append, run?_bind, run?_peek_start hb (Tree.isStart.not_blank hc)]
    simp only [Option.bind_some]
    exact run?_mismatch _ _

theorem run?_variantKey (k : Pieces) {b : List Char} (hb : Blanks b) (s : List Char) :
    readVariantKey.run? (b ++ (k.quoted ++ s)) = k.text?.map (·, s) := by
  have hquoted : k.quoted ++ s = '"' :: (k.chars ++ '"' :: s) := by simp [Pieces.quoted]
  unfold readVariantKey
  rw [hquoted, run?_bind, run?_peek_start hb (by rfl)]
  simp only [Option.bind_some, run?_bind, run?_eat, List.tail_cons, Pieces.run?_text]

theorem run?_variantMember [Named α] {ms : List (Pieces × Tree)} {items : List (List Char)}
    {s : List Char} (hitems : List.Forall₂ Tree.SpellsMember ms items)
    (hjoined : Joined '}' items s) (rest : List Char) :
    (readVariantMember α).run? (s ++ rest) = (Tree.object ms).alternative?.map (·, rest) := by
  unfold readVariantMember
  cases hjoined with
  | empty hb =>
    cases hitems
    unfold readVariantKey
    rw [List.append_assoc, List.cons_append]
    simp only [run?_bind, run?_peek_start hb (show isBlank '}' = false from rfl), Option.bind_some]
    rfl
  | @items b first others s hb hafter =>
    obtain ⟨⟨k, t⟩, ms, hm, hms, rfl⟩ := List.forall₂_cons_right_iff.mp hitems
    obtain ⟨b₁, b₂, r, hb₁, hb₂, hr, rfl⟩ := hm
    have hunit := (Reads.unit t).afterColon.run? hb₁ hb₂ hr (hafter.ends (.inr rfl) rest)
    have hs : b ++ (k.quoted ++ b₁ ++ ':' :: (b₂ ++ r)) ++ s ++ rest =
        b ++ (k.quoted ++ (b₁ ++ ':' :: (b₂ ++ (r ++ (s ++ rest))))) := by simp
    rw [run?_bind] at hunit
    rw [hs]
    simp only [run?_bind, run?_variantKey k hb, run?_ofExcept, toOption_variantNamed]
    cases hkey : k.text?.bind (Named.find? : String → Option α) with
    | none =>
      have hnone : (Tree.object ((k, t) :: ms)).alternative? = (none : Option α) := by
        cases ms <;> simp [Tree.alternative?, hkey]
      rw [hnone]
      cases htext : k.text? <;> simp_all
    | some a =>
      obtain ⟨name, hname, ha⟩ := Option.bind_eq_some_iff.mp hkey
      simp only [hname, ha, Option.map_some, Option.bind_some]
      rw [← Option.bind_assoc, hunit]
      cases hms with
      | nil =>
        have hsome : (Tree.object [(k, t)]).alternative? = t.unit?.map fun _ => a := by
          simp [Tree.alternative?, hkey]
        rw [hsome]
        cases t.unit? with
        | none => rfl
        | some u =>
          simp only [Option.map_some, Option.bind_some, hafter.run?_peek_nil (.inr rfl) rest]
          rfl
      | cons _ _ =>
        obtain ⟨b', s', -, -, hpeek⟩ := hafter.run?_peek_cons rest
        cases t.unit? with
        | none => rfl
        | some u =>
          simp only [Option.map_some, Option.bind_some, hpeek]
          rfl

theorem Reads.alternative [Named α] (depth : Nat) (t : Tree) :
    Reads (readVariant α (depth + 1)) t t.alternative? := by
  cases t with
  | object ms =>
    refine Reads.ofObject fun {b r rest items} hb hitems hjoined => ?_
    unfold readVariant
    rw [run?_bind, run?_peek_start hb (by rfl)]
    simp only [Option.bind_some, enter, run?_bind, run?_eat, List.tail_cons]
    exact run?_variantMember hitems hjoined rest
  | list ts =>
    refine Reads.ofList fun hb _ _ => ?_
    unfold readVariant
    rw [run?_bind, run?_peek_start hb (by rfl)]
    rfl
  | _ => exact Reads.variant (by trivial) (depth + 1)

end Json

end LabelPress
