import LabelPress.Json.Fault
import LabelPress.Text.Decimal

/-!
Readers of JSON text. A reader takes the text that is left; it fails at the first fault, or gives a
value and the text that then is left. That text is never longer, so loops over readers end.
-/

namespace LabelPress.Json

/-- Text left over from `s`. -/
abbrev Rest (s : List Char) := { r : List Char // r.length ≤ s.length }

namespace Rest

theorem length_lt_cons (c : Char) {r : List Char} (t : Rest r) :
    t.val.length < (c :: r).length :=
  Nat.lt_succ_of_le t.property

def after (c : Char) {r : List Char} (t : Rest r) : Rest (c :: r) :=
  ⟨t.val, Nat.le_of_lt (t.length_lt_cons c)⟩

def trans {s : List Char} (t : Rest s) (u : Rest t.val) : Rest s :=
  ⟨u.val, Nat.le_trans u.property t.property⟩

def all (s : List Char) : Rest s := ⟨s, Nat.le_refl _⟩

@[simp] theorem val_after (c : Char) {r : List Char} (t : Rest r) : (t.after c).val = t.val := rfl

@[simp] theorem val_trans {s : List Char} (t : Rest s) (u : Rest t.val) :
    (t.trans u).val = u.val := rfl

@[simp] theorem val_all (s : List Char) : (all s).val = s := rfl

end Rest

theorem length_lt_of_dropWhile {p : Char → Bool} {s r : List Char} {c : Char}
    (h : s.dropWhile p = c :: r) : r.length < s.length := by
  have le : (s.dropWhile p).length ≤ s.length := (List.dropWhile_suffix p).length_le
  rw [h, List.length_cons] at le
  exact le

def Reader (α : Type) : Type := (s : List Char) → Except Fault (α × Rest s)

namespace Reader

variable {α β : Type}

def run (p : Reader α) (s : List Char) : Except Fault (α × List Char) :=
  match p s with
  | .error e => .error e
  | .ok (a, r) => .ok (a, r.val)

def fail (e : Fault) : Reader α := fun _ => .error e

protected def pure (a : α) : Reader α := fun s => .ok (a, .all s)

protected def bind (p : Reader α) (f : α → Reader β) : Reader β := fun s =>
  match p s with
  | .error e => .error e
  | .ok (a, r) =>
    match f a r.val with
    | .error e => .error e
    | .ok (b, t) => .ok (b, r.trans t)

instance : Monad Reader where
  pure := Reader.pure
  bind := Reader.bind

def ofExcept : Except Fault α → Reader α
  | .error e => fail e
  | .ok a => Reader.pure a

@[simp] theorem run_fail (e : Fault) (s : List Char) : (fail e : Reader α).run s = .error e := rfl

@[simp] theorem run_pure (a : α) (s : List Char) : (pure a : Reader α).run s = .ok (a, s) := rfl

@[simp] theorem run_bind (p : Reader α) (f : α → Reader β) (s : List Char) :
    (p >>= f).run s =
      match p.run s with
      | .error e => .error e
      | .ok (a, r) => (f a).run r := by
  change run (Reader.bind p f) s = _
  simp only [run, Reader.bind]
  cases p s with
  | error e => rfl
  | ok x => cases h : f x.1 x.2.val <;> simp [h]

@[simp] theorem run_ofExcept (x : Except Fault α) (s : List Char) :
    (ofExcept x).run s = x.map fun a => (a, s) := by
  cases x <;> rfl

def isBlank (c : Char) : Bool := c == ' ' || c == '\t' || c == '\n' || c == '\r'

theorem length_dropWhile_le (p : Char → Bool) (s : List Char) :
    (s.dropWhile p).length ≤ s.length :=
  (List.dropWhile_suffix p).length_le

def look : Reader (Option Char) := fun s => .ok (s.head?, .all s)

/-- Drops blanks and gives the character after them, which stays. -/
def peek : Reader (Option Char) := fun s =>
  .ok ((s.dropWhile isBlank).head?, ⟨s.dropWhile isBlank, length_dropWhile_le _ _⟩)

def eat : Reader Unit := fun s => .ok ((), ⟨s.tail, by simp⟩)

def span (p : Char → Bool) : Reader (List Char) := fun s =>
  .ok (s.takeWhile p, ⟨s.dropWhile p, length_dropWhile_le _ _⟩)

@[simp] theorem run_look (s : List Char) : look.run s = .ok (s.head?, s) := rfl

@[simp] theorem run_peek (s : List Char) :
    peek.run s = .ok ((s.dropWhile isBlank).head?, s.dropWhile isBlank) := rfl

@[simp] theorem run_eat (s : List Char) : eat.run s = .ok ((), s.tail) := rfl

@[simp] theorem run_span (p : Char → Bool) (s : List Char) :
    (span p).run s = .ok (s.takeWhile p, s.dropWhile p) := rfl

def word : List Char → Reader Unit
  | [] => pure ()
  | c :: cs => do
    match ← look with
    | none => fail .endInValue
    | some d => if d = c then do eat; word cs else fail .expectedWord

def null : Reader Unit := word ['u', 'l', 'l']
def true : Reader Unit := word ['r', 'u', 'e']
def false : Reader Unit := word ['a', 'l', 's', 'e']

inductive Separator (s : List Char)
  | closed (rest : { r : List Char // r.length < s.length })
  | comma (rest : { r : List Char // r.length < s.length })

def separator (close : Char) (atEnd other : Fault) (s : List Char) :
    Except Fault (Separator s) :=
  match h : s.dropWhile isBlank with
  | [] => .error atEnd
  | c :: r =>
    if c = close then .ok (.closed ⟨r, length_lt_of_dropWhile h⟩)
    else if c = ',' then .ok (.comma ⟨r, length_lt_of_dropWhile h⟩)
    else .error other

/-- Reads on after each comma, until the closing character. -/
def afterCommas (close : Char) (atEnd other : Fault) (body : α → Reader α) (a : α) : Reader α :=
  fun s =>
    match separator close atEnd other s with
    | .error e => .error e
    | .ok (.closed r) => .ok (a, ⟨r.val, Nat.le_of_lt r.property⟩)
    | .ok (.comma r) =>
      match body a r.val with
      | .error e => .error e
      | .ok (b, t) =>
        match afterCommas close atEnd other body b t.val with
        | .error e => .error e
        | .ok (c, u) => .ok (c, ⟨u.val, by
            have := u.property
            have := t.property
            have := r.property
            omega⟩)
termination_by s => s.length
decreasing_by
  have := t.property
  have := r.property
  omega

end Reader

end LabelPress.Json
