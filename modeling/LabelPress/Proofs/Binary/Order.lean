import LabelPress.Proofs.Binary.Operation

/-! The order of numbers, and operations that keep it. Infinite numbers are the ends of the order,
the two zeros are equal in it, and what is not a number has no place in it. Rounding never reverses
it, and so neither does an operation that rounds a monotone function once. -/
namespace LabelPress.Binary.Number

variable {F : Format}

inductive Le : Number F → Number F → Prop
  | bottom {y : Number F} : y ≠ .nan → Le (.infinite true) y
  | top {x : Number F} : x ≠ .nan → Le x (.infinite false)
  | finite {x y : Number F} {p q : Rat} : x.toRat? = some p → y.toRat? = some q → p ≤ q → Le x y

instance : LE (Number F) := ⟨Le⟩

theorem ne_nan_of_toRat? {x : Number F} {p : Rat} (h : x.toRat? = some p) : x ≠ .nan := by
  rintro rfl
  contradiction

theorem ne_nan_of_le {x y : Number F} (h : x ≤ y) : x ≠ .nan ∧ y ≠ .nan := by
  cases h with
  | bottom hy => exact ⟨nofun, hy⟩
  | top hx => exact ⟨hx, nofun⟩
  | finite hx hy _ => exact ⟨ne_nan_of_toRat? hx, ne_nan_of_toRat? hy⟩

theorem le_trans {x y z : Number F} (hxy : x ≤ y) (hyz : y ≤ z) : x ≤ z := by
  cases hxy with
  | bottom _ => exact .bottom (ne_nan_of_le hyz).2
  | top hx =>
    cases hyz with
    | top _ => exact .top hx
    | finite hy _ _ => contradiction
  | finite hx hy hpq =>
    cases hyz with
    | bottom _ => contradiction
    | top _ => exact .top (ne_nan_of_toRat? hx)
    | finite hy' hz hqr =>
      cases hy.symm.trans hy'
      exact .finite hx hz (hpq.trans hqr)

theorem toRat?_negate {x : Number F} {p : Rat} (h : x.toRat? = some p) :
    x.negate.toRat? = some (-p) := by
  obtain ⟨negative, m, e, rfl, rfl⟩ := exists_finite h
  cases negative <;> simp [negate, toRat?_finite, signed]

theorem negate_le_negate {x y : Number F} (h : x ≤ y) : y.negate ≤ x.negate := by
  have hnan {z : Number F} (hz : z ≠ .nan) : z.negate ≠ .nan := by
    cases z with
    | nan => contradiction
    | infinite s => nofun
    | finite s m e => nofun
  cases h with
  | bottom hy => exact .top (hnan hy)
  | top hx => exact .bottom (hnan hx)
  | finite hx hy hpq => exact .finite (toRat?_negate hy) (toRat?_negate hx) (neg_le_neg hpq)

theorem negate_round (negative : Bool) (q : Rat) :
    (round negative q : Number F).negate = round (!negative) q := by
  unfold round
  dsimp only
  split_ifs <;> rfl

theorem round_ne_nan (negative : Bool) (q : Rat) : (round negative q : Number F) ≠ .nan := by
  unfold round
  dsimp only
  split_ifs <;> nofun

theorem Rounds.ne_nan {q : Rat} {x : Number F} (h : Rounds q x) : x ≠ .nan := by
  obtain @⟨negative, q, -⟩ := h
  exact round_ne_nan negative q

theorem round_mono (hF : F.Sound) {p q : Rat} (hp : 0 ≤ p) (h : p ≤ q) :
    (round false p : Number F) ≤ round false q := by
  have hnearest := Format.nearest_mono hF hp h
  rcases round_nearest hF false (hp.trans h) with ⟨n, f, hq, hvalue', hlimit'⟩ | ⟨hq, -⟩
  · rcases round_nearest hF false hp with ⟨m, e, hp, hvalue, -⟩ | ⟨-, hlimit⟩
    · rw [hp, hq]
      exact .finite rfl rfl (by rwa [← hvalue, ← hvalue'] at hnearest)
    · exact absurd hlimit' (not_lt.mpr (hlimit.trans hnearest))
  · rw [hq]
    exact .top (round_ne_nan false p)

theorem round_zero_le (a b : Bool) : (round a 0 : Number F) ≤ round b 0 := by
  refine .finite (p := 0) (q := 0) ?_ ?_ le_rfl <;>
    simp [round, zero, toRat?_finite, signed, magnitude]

theorem round_negative_mono (hF : F.Sound) {p q : Rat} (hq : 0 ≤ q) (h : q ≤ p) :
    (round true p : Number F) ≤ round true q := by
  have hmono := negate_le_negate (round_mono hF hq h)
  rwa [negate_round, negate_round] at hmono

theorem Rounds.mono (hF : F.Sound) {p q : Rat} {x y : Number F} (hx : Rounds p x)
    (hy : Rounds q y) (h : p ≤ q) : x ≤ y := by
  obtain @⟨a, p, hp⟩ := hx
  obtain @⟨b, q, hq⟩ := hy
  cases a <;> cases b
  case false.false => exact round_mono hF hp h
  case true.true => exact round_negative_mono hF hq (neg_le_neg_iff.mp h)
  case true.false =>
    exact le_trans (round_negative_mono hF le_rfl hp)
      (le_trans (round_zero_le true false) (round_mono hF le_rfl hq))
  case false.true =>
    have hle : p ≤ -q := h
    obtain rfl : p = 0 := by linarith
    obtain rfl : q = 0 := by linarith
    exact round_zero_le false true

/-- An operation keeps the order if it keeps infinite numbers and rounds a monotone function of
finite values once. -/
theorem le_of_rounds (hF : F.Sound) {f : Number F → Number F} {g : Rat → Rat} (hg : Monotone g)
    (hinfinite : ∀ s, f (.infinite s) = .infinite s)
    (hfinite : ∀ {x p}, x.toRat? = some p → Rounds (g p) (f x)) {x y : Number F} (h : x ≤ y) :
    f x ≤ f y := by
  have hnan {z : Number F} (hz : z ≠ .nan) : f z ≠ .nan := by
    cases z with
    | nan => contradiction
    | infinite s =>
      rw [hinfinite]
      nofun
    | finite s m e => exact (hfinite (toRat?_finite s m e)).ne_nan
  cases h with
  | bottom hy =>
    rw [hinfinite]
    exact .bottom (hnan hy)
  | top hx =>
    rw [hinfinite]
    exact .top (hnan hx)
  | finite hx hy hpq => exact (hfinite hx).mono hF (hfinite hy) (hg hpq)

section

variable {c : Number F} {r : Rat} (hc : c.toRat? = some r) (hr : 0 < r)

include hc hr

theorem exists_positive : ∃ m e, c = .finite false m e ∧ m ≠ 0 := by
  obtain ⟨negative, m, e, rfl, rfl⟩ := exists_finite hc
  have hmagnitude := magnitude_nonneg m e
  cases negative with
  | false =>
    refine ⟨m, e, rfl, ?_⟩
    rintro rfl
    simp [signed, magnitude] at hr
  | true => exact absurd hr (not_lt.mpr (neg_nonpos.mpr hmagnitude))

theorem infinite_mul (s : Bool) : .infinite s * c = .infinite s := by
  obtain ⟨m, e, rfl, hm⟩ := exists_positive hc hr
  have hmul : (.infinite s * .finite false m e : Number F) = .infinite (s != false) := if_neg hm
  rw [hmul, Bool.bne_false]

theorem infinite_div (s : Bool) : .infinite s / c = .infinite s := by
  obtain ⟨m, e, rfl, -⟩ := exists_positive hc hr
  have hdiv : (.infinite s / .finite false m e : Number F) = .infinite (s != false) := rfl
  rw [hdiv, Bool.bne_false]

theorem mul_le_mul_right (hF : F.Sound) {x y : Number F} (h : x ≤ y) : x * c ≤ y * c :=
  le_of_rounds hF (monotone_mul_right_of_nonneg hr.le) (infinite_mul hc hr)
    (fun hx => rounds_mul hx hc) h

theorem div_le_div_right (hF : F.Sound) {x y : Number F} (h : x ≤ y) : x / c ≤ y / c :=
  le_of_rounds hF (monotone_div_right_of_nonneg hr.le) (infinite_div hc hr)
    (fun hx => rounds_div hx hc hr.ne') h

end

theorem ofInt_le_ofInt (hF : F.Sound) {m n : Int} (h : m ≤ n) :
    (ofInt m : Number F) ≤ ofInt n :=
  (rounds_ofInt m).mono hF (rounds_ofInt n) (Int.cast_le.mpr h)

theorem clampWord_mono : Monotone clampWord := fun _ _ h =>
  max_le_max le_rfl (min_le_min h le_rfl)

theorem toInt32_mono {x y : Number F} (h : x ≤ y) : x.toInt32 ≤ y.toInt32 := by
  rw [Int32.le_iff_toInt_le]
  cases h with
  | bottom _ => exact y.toInt32.le_toInt
  | top _ =>
    have hmax : (infinite false : Number F).toInt32.toInt = 2147483647 := rfl
    rw [hmax]
    exact Int.le_of_lt_add_one x.toInt32.toInt_lt
  | finite hx hy hpq =>
    have hword := clampWord_mono (Int.cast_le.mpr (roundAway_mono hpq))
    rw [← toInt_toInt32 hx, ← toInt_toInt32 hy] at hword
    exact_mod_cast hword

end LabelPress.Binary.Number
