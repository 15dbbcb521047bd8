import LabelPress.Json.Record
import LabelPress.Proofs.Json.Lexeme

/-! Going through the members of an object field by field. What a member does to a draft, it does to
each of its slots apart, so the fields of a record are found independently: whatever the order of
the members, a field is what its one member says. -/
namespace LabelPress.Json

variable {V α σ μ : Type}

/-- A part of a draft, and what a member does to it. -/
structure Slot (σ μ : Type) where
  Kept : Type
  get : σ → Kept
  step : Kept → μ → Option Kept

/-- The slots make up the draft, and a step is a step of every slot. -/
structure Slotted (step : σ → μ → Option σ) (slots : List (Slot σ μ)) : Prop where
  step_iff (d : σ) (m : μ) (d' : σ) :
    step d m = some d' ↔ ∀ slot ∈ slots, slot.step (slot.get d) m = some (slot.get d')
  total (d : σ) (m : μ) :
    (∀ slot ∈ slots, (slot.step (slot.get d) m).isSome) → (step d m).isSome
  ext (d d' : σ) : (∀ slot ∈ slots, slot.get d = slot.get d') → d = d'

theorem Slotted.foldlM_iff {step : σ → μ → Option σ} {slots : List (Slot σ μ)}
    (h : Slotted step slots) (ms : List μ) (d d' : σ) :
    ms.foldlM step d = some d' ↔
      ∀ slot ∈ slots, ms.foldlM slot.step (slot.get d) = some (slot.get d') := by
  induction ms generalizing d with
  | nil =>
    simp only [List.foldlM_nil, pure, Option.some.injEq]
    constructor
    · rintro rfl slot hslot
      rfl
    · exact h.ext d d'
  | cons m ms ih =>
    simp only [List.foldlM_cons, Option.bind_eq_bind, Option.bind_eq_some_iff, h.step_iff, ih]
    constructor
    · rintro ⟨next, hnext, hrest⟩ slot hslot
      exact ⟨_, hnext slot hslot, hrest slot hslot⟩
    · intro hall
      -- Every slot goes on, and together they are the whole draft, so the draft goes on too.
      have hsome : (step d m).isSome := by
        apply h.total
        intro slot hslot
        obtain ⟨kept, hkept, -⟩ := hall slot hslot
        rw [hkept]
        rfl
      obtain ⟨next, hnext⟩ := Option.isSome_iff_exists.mp hsome
      rw [h.step_iff] at hnext
      refine ⟨next, hnext, fun slot hslot => ?_⟩
      obtain ⟨kept, hkept, hrest⟩ := hall slot hslot
      rw [hnext slot hslot] at hkept
      cases hkept
      exact hrest

/-- The field of a name among members: what its one member says, or the default if there is none. -/
def field? (read : V → Option α) (name : String) (default : Option α) (ms : List (String × V)) :
    Option α :=
  match ms.filter fun m => m.1 = name with
  | [] => default
  | [m] => read m.2
  | _ => none

def fillSlot (read : V → Option α) (name : String) (field : Option α) (m : String × V) :
    Option (Option α) :=
  if m.1 = name then if field.isSome then none else (read m.2).map some
  else some field

def keepSlot (known : List String) (kept : List (String × V)) (m : String × V) :
    Option (List (String × V)) :=
  if m.1 ∈ known then some kept else some (kept ++ [m])

@[simp] def Slot.field (read : V → Option α) (name : String) (get : σ → Option α) :
    Slot σ (String × V) :=
  ⟨_, get, fillSlot read name⟩

@[simp] def Slot.others (known : List String) (get : σ → List (String × V)) :
    Slot σ (String × V) :=
  ⟨_, get, keepSlot known⟩

@[simp] theorem fillSlot_ne {read : V → Option α} {name k : String} (h : k ≠ name)
    (field : Option α) (v : V) : fillSlot read name field (k, v) = some field :=
  if_neg h

@[simp] theorem keepSlot_mem {known : List String} {k : String} (h : k ∈ known)
    (kept : List (String × V)) (v : V) : keepSlot known kept (k, v) = some kept :=
  if_pos h

@[simp] theorem keepSlot_not_mem {known : List String} {k : String} (h : k ∉ known)
    (kept : List (String × V)) (v : V) : keepSlot known kept (k, v) = some (kept ++ [(k, v)]) :=
  if_neg h

theorem foldlM_fillSlot_some (read : V → Option α) (name : String) (a : α)
    (ms : List (String × V)) :
    ms.foldlM (fillSlot read name) (some a) =
      match ms.filter fun m => m.1 = name with
      | [] => some (some a)
      | _ => none := by
  induction ms with
  | nil => rfl
  | cons m ms ih =>
    rw [List.foldlM_cons, List.filter_cons]
    by_cases hm : m.1 = name
    · simp [fillSlot, hm]
    · simp [fillSlot, hm, ih]

theorem field?_eq (read : V → Option α) (name : String) (default : Option α)
    (ms : List (String × V)) :
    field? read name default ms = (ms.foldlM (fillSlot read name) none).bind (·.or default) := by
  unfold field?
  induction ms with
  | nil => simp
  | cons m ms ih =>
    rw [List.foldlM_cons, List.filter_cons]
    by_cases hm : m.1 = name
    · cases hread : read m.2 with
      | none =>
        cases ms.filter fun m => m.1 = name <;> simp [fillSlot, hm, hread]
      | some a =>
        have hfold := foldlM_fillSlot_some read name a ms
        cases hrest : ms.filter fun m => m.1 = name with
        | nil => simp [fillSlot, hm, hread, hrest, hfold]
        | cons m' ms' => simp [fillSlot, hm, hread, hrest, hfold]
    · simp [fillSlot, hm, ih]

theorem field?_default_iff {read : V → Option α} {name : String} {ms : List (String × V)}
    {a b : α} :
    field? read name (some a) ms = some b ↔
      ∃ field, ms.foldlM (fillSlot read name) none = some field ∧ field.getD a = b := by
  rw [field?_eq, Option.bind_eq_some_iff]
  simp

theorem field?_required_iff {read : V → Option α} {name : String} {ms : List (String × V)} {a : α} :
    field? read name none ms = some a ↔
      ms.foldlM (fillSlot read name) none = some (some a) := by
  rw [field?_eq, Option.bind_eq_some_iff]
  simp

theorem field?_filter {p : String × V → Bool} {read : V → Option α} {name : String}
    (h : ∀ m : String × V, m.1 = name → p m = true) (default : Option α) (ms : List (String × V)) :
    field? read name default (ms.filter p) = field? read name default ms := by
  have hfilter : (ms.filter p).filter (fun m => m.1 = name) = ms.filter fun m => m.1 = name := by
    rw [List.filter_filter]
    apply List.filter_congr
    intro m _
    by_cases hm : m.1 = name
    · simp [hm, h m hm]
    · simp [hm]
  unfold field?
  rw [hfilter]

theorem foldlM_keepSlot (known : List String) (ms kept : List (String × V)) :
    ms.foldlM (keepSlot known) kept =
      some (kept ++ ms.filter fun m => m.1 ∉ known) := by
  induction ms generalizing kept with
  | nil => simp
  | cons m ms ih =>
    rw [List.foldlM_cons, List.filter_cons]
    by_cases hm : m.1 ∈ known
    · simp [keepSlot, hm, ih]
    · simp [keepSlot, hm, ih]

end LabelPress.Json
