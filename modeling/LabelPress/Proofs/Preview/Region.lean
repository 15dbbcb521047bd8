import LabelPress.Preview.Render
import LabelPress.Proofs.Preview.Canvas
import LabelPress.Proofs.Qr.Magnification
import LabelPress.Proofs.Qr.Symbol

/-! The region of an element on the unbounded plane, and the rectangles that draw it. Starts that
would be beyond the last pixel stop there, where no canvas reaches, so that on every canvas the
rectangles cover exactly the region. -/
namespace LabelPress

theorem toInt_max (a b : Int32) : (max a b).toInt = max a.toInt b.toInt := by
  rw [show max a b = if a ≤ b then b else a from rfl]
  split <;> rename_i h <;> rw [Int32.le_iff_toInt_le] at h <;> omega

theorem toInt_min (a b : Int32) : (min a b).toInt = min a.toInt b.toInt := by
  rw [show min a b = if a ≤ b then a else b from rfl]
  split <;> rename_i h <;> rw [Int32.le_iff_toInt_le] at h <;> omega

theorem toInt_sub {a b : Int32} (hb : 0 ≤ b.toInt) (h : b.toInt ≤ a.toInt) :
    (a - b).toInt = a.toInt - b.toInt :=
  Int32.toInt_sub_of_le a b (Int32.le_iff_toInt_le.mpr hb) (Int32.le_iff_toInt_le.mpr h)

theorem toInt_clampedAdd (a b : Int32) :
    (clampedAdd a b).toInt = max (-2147483648) (min (a.toInt + b.toInt) 2147483647) :=
  toInt_clampInt32 _

theorem toInt_clampedMul (a b : Int32) :
    (clampedMul a b).toInt = max (-2147483648) (min (a.toInt * b.toInt) 2147483647) :=
  toInt_clampInt32 _

theorem Drawing.toInt_pixelLength (dots : Int32) (density : Density) :
    (pixelLength dots density).toInt = max 1 (Units.pixelsOfDots dots density).toInt :=
  toInt_max 1 _

theorem Drawing.one_le_pixelLength (dots : Int32) (density : Density) :
    1 ≤ (pixelLength dots density).toInt := by
  rw [toInt_pixelLength]
  omega

/-- The points of a box that are within `t` of one of its sides. -/
def Ring (left top width height t p q : Int) : Prop :=
  ((left ≤ p ∧ p < left + width) ∧ top ≤ q ∧ q < top + height) ∧
    (p < left + t ∨ left + width - t ≤ p ∨ q < top + t ∨ top + height - t ≤ q)

instance (left top width height t p q : Int) : Decidable (Ring left top width height t p q) :=
  inferInstanceAs (Decidable (((_ ∧ _) ∧ _ ∧ _) ∧ (_ ∨ _ ∨ _ ∨ _)))

namespace Drawing

theorem toInt_border {width height thickness : Int32} (hw : 1 ≤ width.toInt) (hh : 1 ≤ height.toInt)
    (ht : 1 ≤ thickness.toInt) :
    (min (min thickness width) height).toInt =
        min (min thickness.toInt width.toInt) height.toInt ∧
      (width - min (min thickness width) height).toInt =
        width.toInt - (min (min thickness width) height).toInt ∧
      (height - min (min thickness width) height).toInt =
        height.toInt - (min (min thickness width) height).toInt := by
  have hthickness : (min (min thickness width) height).toInt =
      min (min thickness.toInt width.toInt) height.toInt := by
    rw [toInt_min, toInt_min]
  exact ⟨hthickness, toInt_sub (by omega) (by omega), toInt_sub (by omega) (by omega)⟩

theorem covers_outline_iff {left top width height thickness : Int32} {ink : LineColor}
    (hw : 1 ≤ width.toInt) (hh : 1 ≤ height.toInt) (ht : 1 ≤ thickness.toInt) {p q : Int}
    (hp : p < 2147483647) (hq : q < 2147483647) :
    (∃ f ∈ outline left top width height thickness ink, f.Covers p q) ↔
      Ring left.toInt top.toInt width.toInt height.toInt
        (min (min thickness.toInt width.toInt) height.toInt) p q := by
  have hleft := left.le_toInt
  have htop := top.le_toInt
  have hwidth := width.toInt_lt
  have hheight := height.toInt_lt
  obtain ⟨hthickness, hright, hdown⟩ := toInt_border hw hh ht
  unfold outline Ring
  simp only [List.mem_cons, List.not_mem_nil, or_false, exists_eq_or_imp, exists_eq_left,
    Fill.Covers, toInt_clampedAdd, hthickness, hdown, hright]
  omega

theorem covers_placeholder_iff {left top : Int32} {p q : Int} (hp : p < 2147483647)
    (hq : q < 2147483647) :
    (∃ f ∈ placeholder left top, f.Covers p q) ↔ Ring left.toInt top.toInt 100 20 1 p q :=
  covers_outline_iff (by decide) (by decide) (by decide) hp hq

theorem ink_of_mem_outline {left top width height thickness : Int32} {ink : LineColor} {f : Fill}
    (h : f ∈ outline left top width height thickness ink) : f.ink = ink := by
  simp only [outline, List.mem_cons, List.not_mem_nil, or_false] at h
  rcases h with rfl | rfl | rfl | rfl <;> rfl

end Drawing

/-- The points of the dark modules, which are squares of side `m`. -/
def Qr.Symbol.Covers (s : Symbol) (left top m p q : Int) : Prop :=
  ∃ x < s.size, ∃ y < s.size, s.isDark x y = true ∧
    (left + x * m ≤ p ∧ p < left + (x + 1) * m) ∧ top + y * m ≤ q ∧ q < top + (y + 1) * m

instance (s : Qr.Symbol) (left top m p q : Int) : Decidable (s.Covers left top m p q) :=
  inferInstanceAs (Decidable (∃ x < s.size, ∃ y < s.size, _ ∧ (_ ∧ _) ∧ _ ∧ _))

/-- Where a row or a column of modules starts: the distance from the first one is a word at most. -/
def moduleStart (start m : Int) (x : Nat) : Int := start + min (x * m) 2147483647

def Qr.Symbol.Draws (s : Symbol) (left top m p q : Int) : Prop :=
  ∃ x < s.size, ∃ y < s.size, s.isDark x y = true ∧
    (moduleStart left m x ≤ p ∧ p < moduleStart left m x + m) ∧
      moduleStart top m y ≤ q ∧ q < moduleStart top m y + m

instance (s : Qr.Symbol) (left top m p q : Int) : Decidable (s.Draws left top m p q) :=
  inferInstanceAs (Decidable (∃ x < s.size, ∃ y < s.size, _ ∧ (_ ∧ _) ∧ _ ∧ _))

/-- All rows or columns start within a word of the first, or those that do not are beyond the
limit, where they start and where they are drawn. -/
def ModulesReach (start m : Int) (n : Nat) (limit : Int) : Prop :=
  (n - 1) * m ≤ 2147483647 ∨ limit ≤ start + 2147483647

instance (start m : Int) (n : Nat) (limit : Int) : Decidable (ModulesReach start m n limit) :=
  inferInstanceAs (Decidable (_ ∨ _))

theorem mem_moduleStart_iff {start m limit : Int} {x n : Nat} (hx : x < n) (hm : 1 ≤ m)
    (hreach : ModulesReach start m n limit) {p : Int} (hp : p < limit) :
    moduleStart start m x ≤ p ∧ p < moduleStart start m x + m ↔
      start + x * m ≤ p ∧ p < start + (x + 1) * m := by
  have hlast : (x : Int) * m ≤ (n - 1) * m :=
    Int.mul_le_mul_of_nonneg_right (by omega) (by omega)
  unfold moduleStart
  unfold ModulesReach at hreach
  rw [Int.add_mul, Int.one_mul]
  omega

theorem Qr.Symbol.draws_iff_covers {s : Symbol} {left top m width height : Int} (hm : 1 ≤ m)
    (hleft : ModulesReach left m s.size width) (htop : ModulesReach top m s.size height) {p q : Int}
    (hp : p < width) (hq : q < height) : s.Draws left top m p q ↔ s.Covers left top m p q := by
  unfold Draws Covers
  constructor
  · rintro ⟨x, hx, y, hy, hdark, hcolumn, hrow⟩
    exact ⟨x, hx, y, hy, hdark, (mem_moduleStart_iff hx hm hleft hp).mp hcolumn,
      (mem_moduleStart_iff hy hm htop hq).mp hrow⟩
  · rintro ⟨x, hx, y, hy, hdark, hcolumn, hrow⟩
    exact ⟨x, hx, y, hy, hdark, (mem_moduleStart_iff hx hm hleft hp).mpr hcolumn,
      (mem_moduleStart_iff hy hm htop hq).mpr hrow⟩

namespace Drawing

theorem mem_module_iff {start side : Int32} {x : Nat} (hx : x < 2147483648)
    (hside : 1 ≤ side.toInt) {p : Int} (hp : p < 2147483647) :
    (clampedAdd start (clampedMul (Int32.ofNat x) side)).toInt ≤ p ∧
        p < (clampedAdd start (clampedMul (Int32.ofNat x) side)).toInt + side.toInt ↔
      moduleStart start.toInt side.toInt x ≤ p ∧
        p < moduleStart start.toInt side.toInt x + side.toInt := by
  have hstart := start.le_toInt
  have hoffset : 0 ≤ (x : Int) * side.toInt := Int.mul_nonneg (by omega) (by omega)
  have hword : (Int32.ofNat x).toInt = x := Int32.toInt_ofNat_of_lt hx
  rw [toInt_clampedAdd, toInt_clampedMul, hword]
  unfold moduleStart
  omega

theorem mem_modules_iff {s : Qr.Symbol} {left top side : Int32} {f : Fill} :
    f ∈ modules s left top side ↔
      ∃ x < s.size, ∃ y < s.size, s.isDark x y = true ∧
        f = ⟨clampedAdd left (clampedMul (Int32.ofNat x) side),
          clampedAdd top (clampedMul (Int32.ofNat y) side), side, side, .black⟩ := by
  unfold modules
  simp only [List.mem_flatMap, List.mem_filterMap, List.mem_range, Option.ite_none_right_eq_some,
    Option.some_inj]
  constructor
  · rintro ⟨y, hy, x, hx, hdark, hf⟩
    exact ⟨x, hx, y, hy, hdark, hf.symm⟩
  · rintro ⟨x, hx, y, hy, hdark, hf⟩
    exact ⟨y, hy, x, hx, hdark, hf.symm⟩

/-- The rectangles of a symbol cover its modules where they are drawn, as far as canvases reach. -/
theorem covers_modules_iff_draws {s : Qr.Symbol} {left top side : Int32}
    (hs : s.size ≤ 2147483648) (hside : 1 ≤ side.toInt) {p q : Int} (hp : p < 2147483647)
    (hq : q < 2147483647) :
    (∃ f ∈ modules s left top side, f.Covers p q) ↔
      s.Draws left.toInt top.toInt side.toInt p q := by
  unfold Qr.Symbol.Draws
  constructor
  · rintro ⟨f, hf, hcovers⟩
    obtain ⟨x, hx, y, hy, hdark, rfl⟩ := mem_modules_iff.mp hf
    exact ⟨x, hx, y, hy, hdark, (mem_module_iff (by omega) hside hp).mp hcovers.1,
      (mem_module_iff (by omega) hside hq).mp hcovers.2⟩
  · rintro ⟨x, hx, y, hy, hdark, hcolumn, hrow⟩
    refine ⟨_, mem_modules_iff.mpr ⟨x, hx, y, hy, hdark, rfl⟩, ?_⟩
    exact ⟨(mem_module_iff (by omega) hside hp).mpr hcolumn,
      (mem_module_iff (by omega) hside hq).mpr hrow⟩

theorem covers_modules_iff {s : Qr.Symbol} {left top side : Int32} (hside : 1 ≤ side.toInt)
    (hsize : s.size * side.toInt ≤ 2147483647) {p q : Int} (hp : p < 2147483647)
    (hq : q < 2147483647) :
    (∃ f ∈ modules s left top side, f.Covers p q) ↔
      s.Covers left.toInt top.toInt side.toInt p q := by
  have hs : (s.size : Int) * 1 ≤ s.size * side.toInt :=
    Int.mul_le_mul_of_nonneg_left hside (by omega)
  have hlast : ((s.size : Int) - 1) * side.toInt ≤ s.size * side.toInt :=
    Int.mul_le_mul_of_nonneg_right (by omega) (by omega)
  have hreach (start : Int) : ModulesReach start side.toInt s.size 2147483647 :=
    .inl (Int.le_trans hlast hsize)
  rw [covers_modules_iff_draws (by omega) hside hp hq]
  exact Qr.Symbol.draws_iff_covers hside (hreach _) (hreach _) hp hq

theorem ink_of_mem_modules {s : Qr.Symbol} {left top side : Int32} {f : Fill}
    (h : f ∈ modules s left top side) : f.ink = .black := by
  obtain ⟨x, -, y, -, -, rfl⟩ := mem_modules_iff.mp h
  rfl

end Drawing

namespace Magnification

variable {m : Magnification} {P : Int32 → Prop}

theorem exists_means_iff : (∃ k, m.Means k ∧ P k) ↔ P m.dots := by
  simp only [← dots_eq_iff, exists_eq_left']

instance [DecidablePred P] : Decidable (∃ k, m.Means k ∧ P k) :=
  decidable_of_iff (P m.dots) exists_means_iff.symm

end Magnification

/-- The symbol of a field. Symbols have other names for their levels of redundancy. -/
def QrField.symbol? (c : QrField) : Option Qr.Symbol :=
  let level : Qr.Level :=
    match c.options.errorCorrection with
    | .ultraHigh => .high
    | .high => .quartile
    | .standard => .medium
    | .highDensity => .low
  Qr.symbol? level c.text.toUTF8.toList

theorem Drawing.symbol?_eq (c : QrField) : symbol? c = c.symbol? := by
  unfold symbol? QrField.symbol?
  cases c.options.errorCorrection <;> rfl

namespace Element

/-- Whether a point is in the region of an element: the border of a box, the dark modules of a
symbol, and for everything else, a symbol that cannot be made included, the border of a small
rectangle. Lengths are in pixels, at least one. -/
def covers (density : Density) (e : Element) (p q : Int) : Bool :=
  let pixel (dots : Option Int32) : Int := (Units.pixelsOfDots (dots.getD 0) density).toInt
  let length (dots : Int32) : Int := max 1 (Units.pixelsOfDots dots density).toInt
  match e with
  | .graphicBox b =>
    Ring (pixel b.position.x) (pixel b.position.y) (length b.width) (length b.height)
      (min (min (length b.thickness) (length b.width)) (length b.height)) p q
  | .qrCode c =>
    match c.symbol? with
    | some s =>
      ∃ k, c.options.magnification.Means k ∧
        s.Covers (pixel c.position.x) (pixel c.position.y) (length k) p q
    | none => Ring (pixel c.position.x) (pixel c.position.y) 100 20 1 p q
  | .text t => Ring (pixel t.position.x) (pixel t.position.y) 100 20 1 p q
  | .customCommand c => Ring (pixel c.position.x) (pixel c.position.y) 100 20 1 p q
  | .native n => Ring (pixel n.position.x) (pixel n.position.y) 100 20 1 p q

def ink : Element → LineColor
  | .graphicBox b => b.color
  | _ => .black

/-- The modules of a symbol are not so great that the symbol would be beyond all words. -/
def SymbolFits (density : Density) : Element → Prop
  | .qrCode c =>
    ∀ s k, c.symbol? = some s → c.options.magnification.Means k →
      s.size * max 1 (Units.pixelsOfDots k density).toInt ≤ 2147483647
  | _ => True

theorem symbolFits_of_le {density : Density} {c : QrField}
    (h : (Units.pixelsOfDots c.options.magnification.dots density).toInt ≤ 12132675) :
    (qrCode c).SymbolFits density := by
  intro s k hs hk
  have hsize := Qr.size_le_of_symbol? hs
  rw [← Magnification.dots_eq_iff.mpr hk]
  generalize (Units.pixelsOfDots c.options.magnification.dots density).toInt = length at h ⊢
  calc (s.size : Int) * max 1 length
      ≤ 177 * max 1 length := Int.mul_le_mul_of_nonneg_right (by omega) (by omega)
    _ ≤ 2147483647 := by omega

theorem ink_of_mem_fills {density : Density} {e : Element} {f : Fill} (h : f ∈ e.fills density) :
    f.ink = e.ink := by
  cases e with
  | graphicBox b => exact Drawing.ink_of_mem_outline h
  | qrCode c =>
    simp only [fills, Drawing.qrCode] at h
    split at h
    · exact Drawing.ink_of_mem_modules h
    · exact Drawing.ink_of_mem_outline h
  | customCommand c => exact Drawing.ink_of_mem_outline h
  | text t => exact Drawing.ink_of_mem_outline h
  | native n => exact Drawing.ink_of_mem_outline h

/-- The rectangles of an element cover its region, as far as canvases reach. -/
theorem covers_fills_iff {density : Density} {e : Element} (he : e.SymbolFits density) {p q : Int}
    (hp : p < 2147483647) (hq : q < 2147483647) :
    (∃ f ∈ e.fills density, f.Covers p q) ↔ e.covers density p q = true := by
  have hlength (dots : Int32) := Drawing.one_le_pixelLength dots density
  have hplaceholder (left top : Int32) :
      (∃ f ∈ Drawing.placeholder left top, f.Covers p q) ↔
        decide (Ring left.toInt top.toInt 100 20 1 p q) = true := by
    rw [decide_eq_true_iff]
    exact Drawing.covers_placeholder_iff hp hq
  cases e with
  | graphicBox b =>
    simp only [fills, Drawing.box, covers, decide_eq_true_iff, ← Drawing.toInt_pixelLength]
    exact Drawing.covers_outline_iff (hlength b.width) (hlength b.height) (hlength b.thickness)
      hp hq
  | qrCode c =>
    simp only [fills, Drawing.qrCode, Drawing.symbol?_eq, covers]
    cases hs : c.symbol? with
    | none => exact hplaceholder _ _
    | some s =>
      have hsize := he s _ hs (Magnification.dots_eq_iff.mp rfl)
      simp only [decide_eq_true_iff, Magnification.exists_means_iff,
        ← Drawing.toInt_pixelLength] at hsize ⊢
      exact Drawing.covers_modules_iff (hlength c.options.magnification.dots) hsize hp hq
  | customCommand c => exact hplaceholder _ _
  | text t => exact hplaceholder _ _
  | native n => exact hplaceholder _ _

end Element

end LabelPress
