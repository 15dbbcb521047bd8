import LabelPress.Printer.Density
import LabelPress.Proofs.Text.Lowercase
import LabelPress.Proofs.Text.Trim

/-! Density texts. What is stripped from a text, from outside in, is exactly what its grammar allows
around the numeral: blanks, units in any case, underscores and blanks again. Small letters are taken
in between, and neither make a text of the grammar out of another one nor the other way round. -/
namespace LabelPress

namespace Density

open Text

structure Drops (word : List Char) (f : List Char → List Char) : Prop where
  drop (s : List Char) : f (word ++ s) = f s
  keep {s : List Char} : ¬word <+: s → f s = s

theorem drops_dropUnit : Drops ['d', 'p', 'i'] dropUnit where
  drop s := by
    change dropUnit ('d' :: 'p' :: 'i' :: s) = _
    rw [dropUnit]
  keep {s} h := by
    unfold dropUnit
    split
    · exact absurd (List.prefix_append _ _) h
    · rfl

theorem drops_dropUnitBackwards : Drops ['i', 'p', 'd'] dropUnitBackwards where
  drop s := by
    change dropUnitBackwards ('i' :: 'p' :: 'd' :: s) = _
    rw [dropUnitBackwards]
  keep {s} h := by
    unfold dropUnitBackwards
    split
    · exact absurd (List.prefix_append _ _) h
    · rfl

theorem Drops.eq_iff {word : List Char} {f : List Char → List Char} (h : Drops word f)
    (hword : word ≠ []) {s m : List Char} (hm : ¬word <+: m) :
    f s = m ↔ ∃ k, s = (List.replicate k word).flatten ++ m := by
  constructor
  · induction hn : s.length using Nat.strongRecOn generalizing s with
    | ind n ih =>
      intro hs
      by_cases hprefix : word <+: s
      · obtain ⟨r, rfl⟩ := hprefix
        have hpos := List.length_pos_of_ne_nil hword
        rw [List.length_append] at hn
        rw [h.drop] at hs
        obtain ⟨k, rfl⟩ := ih r.length (by omega) rfl hs
        exact ⟨k + 1, by rw [List.replicate_succ, List.flatten_cons, List.append_assoc]⟩
      · rw [h.keep hprefix] at hs
        exact ⟨0, hs⟩
  · rintro ⟨k, rfl⟩
    induction k with
    | zero => exact h.keep hm
    | succ k ih => rw [List.replicate_succ, List.flatten_cons, List.append_assoc, h.drop, ih]

def units (k : Nat) : List Char := (List.replicate k ['d', 'p', 'i']).flatten

def IsUnits (s : List Char) : Prop := ∃ k, s.map Char.toLower = units k

def IsUnderscores (s : List Char) : Prop := ∀ c ∈ s, c = '_'

def IsBlanks (s : List Char) : Prop := ∀ c ∈ s, isBlank c = true

/-- The texts of a numeral: blanks, units, underscores and blanks before it, and the same in the
opposite order after it. -/
inductive Spells (numeral : List Char) : List Char → Prop
  | intro {w₁ u₁ v₁ w₂ w₃ v₂ u₂ w₄ : List Char} :
      IsBlanks w₁ → IsUnits u₁ → IsUnderscores v₁ → IsBlanks w₂ →
      IsBlanks w₃ → IsUnderscores v₂ → IsUnits u₂ → IsBlanks w₄ →
        Spells numeral (w₁ ++ u₁ ++ v₁ ++ w₂ ++ numeral ++ w₃ ++ v₂ ++ u₂ ++ w₄)

inductive HasNumeral : Density → List Char → Prop
  | dpi152 : HasNumeral dpi152 ['1', '5', '2']
  | dpi203 : HasNumeral dpi203 ['2', '0', '3']
  | dpi300 : HasNumeral dpi300 ['3', '0', '0']
  | dpi600 : HasNumeral dpi600 ['6', '0', '0']
  | dpi608 : HasNumeral dpi600 ['6', '0', '8']

def IsInner (c : Char) : Prop := c = '_' ∨ isBlank c = true ∨ isDigit c = true

theorem IsInner.caseless {c : Char} (h : IsInner c) : Caseless c := by
  unfold Caseless
  rcases h with rfl | hblank | hdigit
  · decide
  · simp only [isBlank, Bool.or_eq_true, Bool.and_eq_true, decide_eq_true_eq, beq_iff_eq] at hblank
    omega
  · have hbounds := bounds_of_isDigit hdigit
    omega

theorem IsInner.settled {c : Char} (h : IsInner c) : Settled c := by
  rcases h with rfl | hblank | hdigit
  · exact .inl (by decide)
  · exact .inr hblank
  · have hbounds := bounds_of_isDigit hdigit
    refine .inl ⟨by omega, ?_⟩
    rintro rfl
    contradiction

theorem settled_units (k : Nat) : ∀ c ∈ units k, Settled c := by
  have hword : ∀ c ∈ ['d', 'p', 'i'], Settled c := by
    unfold Settled
    simp only [List.forall_mem_cons, List.not_mem_nil, false_implies, implies_true, and_true]
    decide
  intro c hc
  obtain ⟨word, hmem, hc⟩ := List.mem_flatten.mp hc
  rw [List.eq_of_mem_replicate hmem] at hc
  exact hword c hc

theorem not_prefix_of_inner {c : Char} (hc : ¬IsInner c) {y : List Char} (hne : y ≠ [])
    (hy : ∀ d ∈ y, IsInner d) (word s : List Char) : ¬(c :: word) <+: y ++ s := by
  cases y with
  | nil => exact absurd rfl hne
  | cons d y =>
    rintro ⟨r, hr⟩
    rw [List.cons_append, List.cons_append, List.cons.injEq] at hr
    exact hc (hr.1 ▸ hy d List.mem_cons_self)

structure Numeric (n : List Char) : Prop where
  ne_nil : n ≠ []
  isDigit : ∀ c ∈ n, isDigit c = true

inductive Inside (n : List Char) : List Char → Prop
  | intro {v w w' v' : List Char} : IsUnderscores v → IsBlanks w → IsBlanks w' → IsUnderscores v' →
      Inside n (v ++ (w ++ n ++ w') ++ v')

namespace Inside

variable {n y : List Char}

theorem ne_nil (h : Inside n y) (hn : Numeric n) : y ≠ [] := by
  cases h
  simp [hn.ne_nil]

theorem isInner (h : Inside n y) (hn : Numeric n) : ∀ c ∈ y, IsInner c := by
  obtain ⟨hv, hw, hw', hv'⟩ := h
  simp only [List.mem_append]
  rintro c ((hc | (hc | hc) | hc) | hc)
  · exact .inl (hv c hc)
  · exact .inr (.inl (hw c hc))
  · exact .inr (.inr (hn.isDigit c hc))
  · exact .inr (.inl (hw' c hc))
  · exact .inl (hv' c hc)

end Inside

section

variable {n : List Char} (hn : Numeric n)

include hn

theorem trim_eq_iff_inside {y : List Char} :
    trim (trimWhere (· == '_') y) = n ↔ Inside n y := by
  have hblank {x : List Char} : trim x = n ↔
      ∃ w w', x = w ++ n ++ w' ∧ IsBlanks w ∧ IsBlanks w' :=
    trimWhere_eq_iff hn.ne_nil fun c hc => isBlank_of_isDigit (hn.isDigit c hc)
  have hrule {w w' : List Char} (hw : IsBlanks w) (hw' : IsBlanks w') :
      trimWhere (· == '_') y = w ++ n ++ w' ↔
        ∃ v v', y = v ++ (w ++ n ++ w') ++ v' ∧ IsUnderscores v ∧ IsUnderscores v' := by
    have hkept : ∀ c ∈ w ++ n ++ w', (c == '_') = false := by
      simp only [List.mem_append, beq_eq_false_iff_ne]
      rintro c ((hc | hc) | hc) rfl
      · exact absurd (hw _ hc) (by decide)
      · exact absurd (hn.isDigit _ hc) (by decide)
      · exact absurd (hw' _ hc) (by decide)
    rw [trimWhere_eq_iff (by simp [hn.ne_nil]) hkept]
    simp [IsUnderscores]
  rw [hblank]
  constructor
  · rintro ⟨w, w', hx, hw, hw'⟩
    obtain ⟨v, v', rfl, hv, hv'⟩ := (hrule hw hw').mp hx
    exact .intro hv hw hw' hv'
  · rintro ⟨hv, hw, hw', hv'⟩
    exact ⟨_, _, (hrule hw hw').mpr ⟨_, _, rfl, hv, hv'⟩, hw, hw'⟩

theorem dropUnit_eq_iff {y t : List Char} (hy : Inside n y) (s : List Char) :
    dropUnit t = y ++ s ↔ ∃ k, t = units k ++ (y ++ s) := by
  have hd : ¬IsInner 'd' := by
    unfold IsInner
    decide
  exact drops_dropUnit.eq_iff (by simp)
    (not_prefix_of_inner hd (hy.ne_nil hn) (hy.isInner hn) _ s)

theorem dropUnitBackwards_eq_iff {y t : List Char} (hy : Inside n y) :
    (dropUnitBackwards t.reverse).reverse = y ↔ ∃ k, t = y ++ units k := by
  have hi : ¬IsInner 'i' := by
    unfold IsInner
    decide
  have hinner : ∀ c ∈ y.reverse, IsInner c := by simpa using hy.isInner hn
  have hstop := not_prefix_of_inner hi (by simpa using hy.ne_nil hn) hinner ['p', 'd'] []
  rw [List.append_nil] at hstop
  rw [List.reverse_eq_iff, drops_dropUnitBackwards.eq_iff (by simp) hstop]
  simp [units, List.reverse_eq_iff, List.reverse_flatten]

theorem bare_eq_iff {t : List Char} :
    bare t = n ↔ ∃ k y k', Inside n y ∧ t = units k ++ (y ++ units k') := by
  unfold bare
  dsimp only
  rw [trim_eq_iff_inside hn]
  constructor
  · intro hy
    obtain ⟨k', hrest⟩ := (dropUnitBackwards_eq_iff hn hy).mp rfl
    obtain ⟨k, ht⟩ := (dropUnit_eq_iff hn hy (units k')).mp hrest
    exact ⟨k, _, k', hy, ht⟩
  · rintro ⟨k, y, k', hy, ht⟩
    have hrest := (dropUnit_eq_iff hn hy (units k')).mpr ⟨k, ht⟩
    rwa [(dropUnitBackwards_eq_iff hn hy).mpr ⟨k', hrest⟩]

theorem bare_lowercase_eq_iff {s : List Char} :
    bare (lowercase s) = n ↔
      ∃ u y u', IsUnits u ∧ Inside n y ∧ IsUnits u' ∧ s = u ++ (y ++ u') := by
  have hsettled {y : List Char} (hy : Inside n y) (k k' : Nat) :
      ∀ c ∈ units k ++ (y ++ units k'), Settled c := by
    simp only [List.mem_append]
    rintro c (hc | hc | hc)
    · exact settled_units k c hc
    · exact (hy.isInner hn c hc).settled
    · exact settled_units k' c hc
  have hcase {y : List Char} (hy : Inside n y) (y' : List Char) :
      y'.map Char.toLower = y ↔ y' = y :=
    map_toLower_eq_iff fun c hc => (hy.isInner hn c hc).caseless
  rw [bare_eq_iff hn]
  constructor
  · rintro ⟨k, y, k', hy, hs⟩
    rw [lowercase_eq_iff (hsettled hy k k'), List.map_eq_append_iff] at hs
    obtain ⟨u, rest, rfl, hu, hrest⟩ := hs
    obtain ⟨y', u', rfl, hy', hu'⟩ := List.map_eq_append_iff.mp hrest
    rw [(hcase hy y').mp hy']
    exact ⟨u, y, u', ⟨k, hu⟩, hy, ⟨k', hu'⟩, rfl⟩
  · rintro ⟨u, y, u', ⟨k, hu⟩, hy, ⟨k', hu'⟩, rfl⟩
    refine ⟨k, y, k', hy, ?_⟩
    rw [lowercase_eq_iff (hsettled hy k k'), List.map_append, List.map_append, hu, hu',
      (hcase hy y).mpr rfl]

end

theorem isBlank_of_mem_units {u : List Char} (hu : IsUnits u) : ∀ c ∈ u, isBlank c = false := by
  obtain ⟨k, hk⟩ := hu
  have hword : ∀ c ∈ ['d', 'p', 'i'], isBlank c = false := by simp [isBlank]
  intro c hc
  obtain ⟨word, hmem, hletter⟩ :=
    List.mem_flatten.mp (show c.toLower ∈ units k from hk ▸ List.mem_map_of_mem hc)
  rw [List.eq_of_mem_replicate hmem] at hletter
  rw [← isBlank_toLower]
  exact hword _ hletter

/-- Blanks are dropped from the front of a text: those before its units, or if there are neither
units nor underscores, those inside as well. -/
theorem exists_dropWhile {U : List Char → Prop} (hnil : U [])
    (hunits : ∀ u, U u → ∀ c ∈ u, isBlank c = false) {b u v w : List Char} (hb : IsBlanks b)
    (hu : U u) (hv : IsUnderscores v) (hw : IsBlanks w) :
    ∃ u' v' w', U u' ∧ IsUnderscores v' ∧ IsBlanks w' ∧
      (b ++ (u ++ v ++ w)).dropWhile isBlank = u' ++ v' ++ w' := by
  rw [List.dropWhile_append_of_pos hb]
  cases hfront : u ++ v with
  | nil =>
    refine ⟨[], [], [], hnil, by simp [IsUnderscores], by simp [IsBlanks], ?_⟩
    exact List.dropWhile_eq_nil_iff.mpr hw
  | cons c r =>
    have hc : isBlank c = false := by
      rcases List.mem_append.mp (hfront ▸ List.mem_cons_self : c ∈ u ++ v) with hc | hc
      · exact hunits u hu c hc
      · rw [hv c hc]
        rfl
    refine ⟨u, v, w, hu, hv, hw, ?_⟩
    rw [hfront, List.cons_append, List.dropWhile_cons_of_neg (by simp [hc])]

theorem isUnits_nil : IsUnits [] := ⟨0, rfl⟩

theorem IsBlanks.reverse {w : List Char} (hw : IsBlanks w) : IsBlanks w.reverse :=
  fun c hc => hw c (List.mem_reverse.mp hc)

theorem IsUnderscores.reverse {v : List Char} (hv : IsUnderscores v) : IsUnderscores v.reverse :=
  fun c hc => hv c (List.mem_reverse.mp hc)

theorem Spells.exists_trim {n s : List Char} (hn : Numeric n) (h : Spells n s) :
    ∃ u y u', IsUnits u ∧ Inside n y ∧ IsUnits u' ∧ trim s = u ++ (y ++ u') := by
  obtain @⟨w₁, u₁, v₁, w₂, w₃, v₂, u₂, w₄, hw₁, hu₁, hv₁, hw₂, hw₃, hv₂, hu₂, hw₄⟩ := h
  obtain ⟨u, v, w, hu, hv, hw, hfront⟩ :=
    exists_dropWhile isUnits_nil (fun _ => isBlank_of_mem_units) hw₁ hu₁ hv₁ hw₂
  obtain ⟨u', v', w', hu', hv', hw', hback⟩ :=
    exists_dropWhile (U := fun u => IsUnits u.reverse) (u := u₂.reverse) isUnits_nil
      (fun u hu c hc => isBlank_of_mem_units hu c (List.mem_reverse.mpr hc)) hw₄.reverse
      (by simpa using hu₂) hv₂.reverse hw₃.reverse
  refine ⟨u, v ++ (w ++ n ++ w'.reverse) ++ v'.reverse, u'.reverse, hu,
    .intro hv hw hw'.reverse hv'.reverse, hu', ?_⟩
  have htrim := trimWhere_append (p := isBlank) (l := w₁ ++ (u₁ ++ v₁ ++ w₂))
    (r := w₃ ++ v₂ ++ u₂ ++ w₄) hn.ne_nil fun c hc => isBlank_of_isDigit (hn.isDigit c hc)
  have hreverse : (w₃ ++ v₂ ++ u₂ ++ w₄).reverse =
      w₄.reverse ++ (u₂.reverse ++ v₂.reverse ++ w₃.reverse) := by
    simp
  rw [hreverse, hfront, hback] at htrim
  unfold trim
  simpa [List.append_assoc] using htrim

theorem numeral_eq_iff {n : List Char} (hn : Numeric n) {s : List Char} :
    numeral s = n ↔ Spells n s := by
  unfold numeral
  rw [bare_lowercase_eq_iff hn]
  constructor
  · rintro ⟨u, y, u', hu, ⟨hv, hw, hw', hv'⟩, hu', hs⟩
    obtain ⟨l, r, hparts, hl, hr⟩ := exists_trimWhere isBlank s
    unfold trim at hs
    rw [hparts, hs]
    have hspells : Spells n _ := .intro hl hu hv hw hw' hv' hu' hr
    simpa [List.append_assoc] using hspells
  · exact fun h => h.exists_trim hn

theorem HasNumeral.numeric {d : Density} {n : List Char} (h : d.HasNumeral n) : Numeric n := by
  cases h <;> exact ⟨by decide, by simp [isDigit]⟩

theorem ofText?_eq_some_iff {text : String} {d : Density} :
    ofText? text = some d ↔ d.HasNumeral (numeral text.toList) := by
  unfold ofText?
  dsimp only
  generalize numeral text.toList = n
  constructor
  · intro h
    split_ifs at h with h152 h203 h300 h600 <;> cases h
    · exact h152 ▸ .dpi152
    · exact h203 ▸ .dpi203
    · exact h300 ▸ .dpi300
    · rcases h600 with rfl | rfl
      · exact .dpi600
      · exact .dpi608
  · rintro ⟨⟩ <;> rfl

/-- A text is read as a density exactly if it spells a numeral of this density. A text that spells
none is reported as it stands. -/
theorem ofText_eq_iff (text : String) :
    (∀ d, ofText text = .ok d ↔ ∃ n, HasNumeral d n ∧ Spells n text.toList) ∧
      (ofText text = .error (.unknownDensity text) ↔
        ¬∃ d n, HasNumeral d n ∧ Spells n text.toList) := by
  have hsome (d : Density) :
      ofText? text = some d ↔ ∃ n, HasNumeral d n ∧ Spells n text.toList := by
    rw [ofText?_eq_some_iff]
    constructor
    · exact fun h => ⟨_, h, (numeral_eq_iff h.numeric).mp rfl⟩
    · rintro ⟨n, hn, hspells⟩
      rwa [(numeral_eq_iff hn.numeric).mpr hspells]
  simp only [← hsome]
  unfold ofText
  cases ofText? text <;> simp

/-- Units in mixed case and underscores on both sides, and blanks of several kinds. -/
example : ofText "\u3000dPiDPI__ 608\u00a0_Dpi\n" = .ok .dpi600 := by
  decide +kernel

/-- The dotted capital has a small letter of two characters, the second of which remains. -/
example : ofText "dp\u0130203" = .error (.unknownDensity "dp\u0130203") := by
  decide +kernel

end Density

end LabelPress
