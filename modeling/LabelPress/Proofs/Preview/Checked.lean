import LabelPress.Proofs.Preview.Painting

/-! Drawing on machine words, with every operation checked: a difference or a sum must be a word, a
conversion must keep the number, a border must fit its box, and only pixels of the canvas may be
set. Checked drawing never fails, and its picture is the picture of the label. -/
namespace LabelPress

inductive Mishap
  | overflow
  | conversion
  /-- A border is not between one and the sides of its box, or a canvas has no pixel. -/
  | length
  /-- A clipped rectangle ends beyond the canvas. -/
  | bounds
  | pixel
deriving DecidableEq, Repr

namespace Checked

def ensure (mishap : Mishap) (p : Prop) [Decidable p] : Except Mishap Unit :=
  if p then .ok () else .error mishap

def difference (a b : Int32) : Except Mishap Int32 := do
  ensure .overflow (-2147483648 ≤ a.toInt - b.toInt ∧ a.toInt - b.toInt ≤ 2147483647)
  pure (a - b)

def sum (a b : Int64) : Except Mishap Int64 := do
  ensure .overflow
    (-9223372036854775808 ≤ a.toInt + b.toInt ∧ a.toInt + b.toInt ≤ 9223372036854775807)
  pure (a + b)

def unsigned (n : Int) : Except Mishap UInt32 := do
  ensure .conversion (0 ≤ n ∧ n ≤ 4294967295)
  pure (UInt32.ofNat n.toNat)

def signed (n : Nat) : Except Mishap Int32 := do
  ensure .conversion (n ≤ 2147483647)
  pure (Int32.ofNat n)

def clamp (n : Int64) (limit : UInt32) : Int64 := max 0 (min n (Int64.ofNat limit.toNat))

def clip (start length : Int32) (limit : UInt32) : Except Mishap (UInt32 × UInt32) := do
  let low ← unsigned (clamp start.toInt64 limit).toInt
  let stop ← sum start.toInt64 length.toInt64
  let high ← unsigned (clamp stop limit).toInt
  pure (low, high)

def put (ink : LineColor) (c : Canvas) (x y : Nat) : Except Mishap Canvas := do
  ensure .pixel (x < c.width ∧ y < c.height)
  if h : y * c.width + x < c.pixels.size then
    pure { c with pixels := c.pixels.set (y * c.width + x) ink }
  else throw .pixel

def putRun (ink : LineColor) (c : Canvas) (x count y : Nat) : Except Mishap Canvas :=
  (List.range' x count).foldlM (fun c x => put ink c x y) c

def putRows (ink : LineColor) (c : Canvas) (x count y rows : Nat) : Except Mishap Canvas :=
  (List.range' y rows).foldlM (fun c y => putRun ink c x count y) c

def fill (c : Canvas) (f : Fill) : Except Mishap Canvas := do
  let width ← unsigned c.width
  let height ← unsigned c.height
  let (x0, x1) ← clip f.left f.width width
  let (y0, y1) ← clip f.top f.height height
  ensure .bounds (x1 ≤ width ∧ y1 ≤ height)
  putRows f.ink c x0.toNat (x1.toNat - x0.toNat) y0.toNat (y1.toNat - y0.toNat)

def outline (c : Canvas) (left top width height thickness : Int32) (ink : LineColor) :
    Except Mishap Canvas := do
  let t := min (min thickness width) height
  ensure .length (1 ≤ t ∧ t ≤ width ∧ t ≤ height)
  let c ← fill c ⟨left, top, width, t, ink⟩
  let down ← difference height t
  let c ← fill c ⟨left, clampedAdd top down, width, t, ink⟩
  let c ← fill c ⟨left, top, t, height, ink⟩
  let right ← difference width t
  fill c ⟨clampedAdd left right, top, t, height, ink⟩

def placeholder (c : Canvas) (left top : Int32) : Except Mishap Canvas :=
  outline c left top 100 20 1 .black

def darkModule (s : Qr.Symbol) (left top side : Int32) (c : Canvas) (x y : Nat) :
    Except Mishap Canvas := do
  if s.isDark x y then
    let column ← signed x
    let row ← signed y
    fill c ⟨clampedAdd left (clampedMul column side), clampedAdd top (clampedMul row side), side,
      side, .black⟩
  else pure c

def modules (c : Canvas) (s : Qr.Symbol) (left top side : Int32) : Except Mishap Canvas :=
  (List.range s.size).foldlM (fun c y =>
    (List.range s.size).foldlM (fun c x => darkModule s left top side c x y) c) c

def element (density : Density) (c : Canvas) (e : Element) : Except Mishap Canvas :=
  let left := Units.pixelsOfDots (e.position.x.getD 0) density
  let top := Units.pixelsOfDots (e.position.y.getD 0) density
  match e with
  | .qrCode q =>
    match Drawing.symbol? q with
    | some s => modules c s left top (Drawing.moduleSide q.options.magnification density)
    | none => placeholder c left top
  | .graphicBox b =>
    outline c left top (Drawing.pixelLength b.width density) (Drawing.pixelLength b.height density)
      (Drawing.pixelLength b.thickness density) b.color
  | _ => placeholder c left top

def side (dots : Int32) (density : Density) : Except Mishap UInt32 := do
  let side ← unsigned (Drawing.pixelLength dots density).toInt
  ensure .length (1 ≤ side)
  pure side

def picture (l : Label) (width height : Int32) : Except Mishap Canvas := do
  let width ← side width l.config.density
  let height ← side height l.config.density
  l.elements.foldlM (element l.config.density) (Canvas.blank width.toNat height.toNat)

theorem ok_bind {α β : Type} (a : α) (f : α → Except Mishap β) : Except.ok a >>= f = f a := rfl

theorem ensure_ok {mishap : Mishap} {p : Prop} [Decidable p] (h : p) : ensure mishap p = .ok () :=
  if_pos h

theorem difference_eq {a b : Int32} (hb : 0 ≤ b.toInt) (h : b.toInt ≤ a.toInt) :
    difference a b = .ok (a - b) := by
  have ha := a.toInt_lt
  unfold difference
  rw [ensure_ok (by omega)]
  rfl

theorem unsigned_eq {n : Int} (hn : 0 ≤ n) (h : n ≤ 4294967295) :
    unsigned n = .ok (UInt32.ofNat n.toNat) := by
  unfold unsigned
  rw [ensure_ok ⟨hn, h⟩]
  rfl

theorem toNat_ofNat {n : Nat} (h : n ≤ 2147483647) : (UInt32.ofNat n).toNat = n :=
  UInt32.toNat_ofNat_of_lt' (Nat.lt_of_le_of_lt h (by decide))

theorem signed_eq {n : Nat} (h : n ≤ 2147483647) : signed n = .ok (Int32.ofNat n) := by
  unfold signed
  rw [ensure_ok h]
  rfl

theorem toInt_clamp (n : Int64) (limit : UInt32) :
    (clamp n limit).toInt = max 0 (min n.toInt limit.toNat) := by
  have hlt := limit.toNat_lt
  have hlimit : (Int64.ofNat limit.toNat).toInt = limit.toNat := Int64.toInt_ofNat_of_lt (by omega)
  have hmin : (min n (Int64.ofNat limit.toNat)).toInt = min n.toInt limit.toNat := by
    rw [show min n (Int64.ofNat limit.toNat) =
      if n ≤ Int64.ofNat limit.toNat then n else Int64.ofNat limit.toNat from rfl]
    split <;> rename_i h <;> rw [Int64.le_iff_toInt_le, hlimit] at h <;> omega
  unfold clamp
  rw [← hmin]
  generalize min n (Int64.ofNat limit.toNat) = m
  rw [show max 0 m = if 0 ≤ m then m else 0 from rfl]
  split <;> rename_i h <;> rw [Int64.le_iff_toInt_le] at h <;> simp at h ⊢ <;> omega

theorem sum_eq (a b : Int32) :
    sum a.toInt64 b.toInt64 = .ok (a.toInt64 + b.toInt64) ∧
      (a.toInt64 + b.toInt64).toInt = a.toInt + b.toInt := by
  have ha := a.toInt_lt
  have ha' := a.le_toInt
  have hb := b.toInt_lt
  have hb' := b.le_toInt
  constructor
  · unfold sum
    rw [ensure_ok (by simp only [Int32.toInt_toInt64]; omega)]
    rfl
  · rw [Int64.toInt_add, Int32.toInt_toInt64, Int32.toInt_toInt64]
    exact Int.bmod_eq_of_le (by omega) (by omega)

theorem clip_eq (start length : Int32) {limit : Nat} (hlimit : limit ≤ 2147483647) :
    clip start length (UInt32.ofNat limit) =
      .ok (UInt32.ofNat (Canvas.clip start length limit).1,
        UInt32.ofNat (Canvas.clip start length limit).2) := by
  have hword := toNat_ofNat hlimit
  obtain ⟨hsum, hexact⟩ := sum_eq start length
  have hlow := toInt_clamp start.toInt64 (UInt32.ofNat limit)
  have hhigh := toInt_clamp (start.toInt64 + length.toInt64) (UInt32.ofNat limit)
  rw [hword, Int32.toInt_toInt64] at hlow
  rw [hword, hexact] at hhigh
  unfold clip Canvas.clip
  rw [hsum, hlow, unsigned_eq (by omega) (by omega), ok_bind, ok_bind, hhigh,
    unsigned_eq (by omega) (by omega)]
  rfl

structure Fits (c : Canvas) : Prop where
  valid : c.Valid
  width : c.width ≤ 2147483647
  height : c.height ≤ 2147483647

theorem fits_blank {width height : Nat} (hwidth : width ≤ 2147483647)
    (hheight : height ≤ 2147483647) : Fits (.blank width height) :=
  ⟨Canvas.valid_blank width height, hwidth, hheight⟩

theorem Fits.fill {c : Canvas} (h : Fits c) (f : Fill) : Fits (c.fill f) :=
  ⟨h.valid.fill f, h.width, h.height⟩

theorem put_eq {ink : LineColor} {c : Canvas} (hc : c.Valid) {x y : Nat} (hx : x < c.width)
    (hy : y < c.height) :
    put ink c x y = .ok { c with pixels := c.pixels.setIfInBounds (y * c.width + x) ink } := by
  have hindex := hc.index_lt hx hy
  unfold put
  rw [ensure_ok ⟨hx, hy⟩, dif_pos hindex, Array.setIfInBounds_def, dif_pos hindex]
  rfl

theorem putRun_eq {ink : LineColor} {c : Canvas} (hc : c.Valid) {x count y : Nat}
    (hx : x + count ≤ c.width) (hy : y < c.height) :
    putRun ink c x count y =
      .ok { c with pixels := Canvas.setRun ink c.pixels (y * c.width + x) count } := by
  unfold putRun
  induction count generalizing c x with
  | zero => rfl
  | succ count ih =>
    have hnext :
        ({ c with pixels := c.pixels.setIfInBounds (y * c.width + x) ink } : Canvas).Valid :=
      (Array.size_setIfInBounds).trans hc
    rw [List.range'_succ, List.foldlM_cons, put_eq hc (by omega) hy]
    exact ih hnext (by dsimp only; omega) hy

theorem putRows_eq {ink : LineColor} {c : Canvas} (hc : c.Valid) {x count y rows : Nat}
    (hx : x + count ≤ c.width) (hy : y + rows ≤ c.height) :
    putRows ink c x count y rows =
      .ok { c with
        pixels := Canvas.setRows ink c.width count c.pixels (y * c.width + x) rows } := by
  unfold putRows
  induction rows generalizing c y with
  | zero => rfl
  | succ rows ih =>
    have hnext : ({ c with pixels := Canvas.setRun ink c.pixels (y * c.width + x) count } :
        Canvas).Valid := (Canvas.size_setRun _ _ _ _).trans hc
    have hindex : y * c.width + x + c.width = (y + 1) * c.width + x := by
      rw [Nat.succ_mul]
      omega
    rw [List.range'_succ, List.foldlM_cons, putRun_eq hc hx (by omega), Canvas.setRows, hindex]
    exact ih hnext hx (by dsimp only; omega)

theorem fill_eq {c : Canvas} (hc : Fits c) (f : Fill) : fill c f = .ok (c.fill f) := by
  have hwidth := hc.width
  have hheight := hc.height
  obtain ⟨hx0, hx1⟩ := Canvas.clip_le f.left f.width c.width
  obtain ⟨hy0, hy1⟩ := Canvas.clip_le f.top f.height c.height
  have hle {n limit : Nat} (h : n ≤ limit) (hlimit : limit ≤ 2147483647) :
      UInt32.ofNat n ≤ UInt32.ofNat limit := by
    rwa [UInt32.le_iff_toNat_le, toNat_ofNat (Nat.le_trans h hlimit), toNat_ofNat hlimit]
  unfold fill
  rw [unsigned_eq (by omega) (by omega), unsigned_eq (by omega) (by omega), Int.toNat_natCast,
    Int.toNat_natCast, ok_bind, ok_bind, clip_eq _ _ hwidth, ok_bind]
  dsimp only
  rw [clip_eq _ _ hheight, ok_bind]
  dsimp only
  rw [ensure_ok ⟨hle hx1 hwidth, hle hy1 hheight⟩, ok_bind, toNat_ofNat (by omega),
    toNat_ofNat (by omega), toNat_ofNat (by omega), toNat_ofNat (by omega)]
  exact putRows_eq hc.valid (by omega) (by omega)

theorem Fits.paint {c : Canvas} (h : Fits c) (fills : List Fill) : Fits (c.paint fills) where
  valid := h.valid.paint fills
  width := by
    rw [Canvas.width_paint]
    exact h.width
  height := by
    rw [Canvas.height_paint]
    exact h.height

theorem outline_eq {c : Canvas} (hc : Fits c) (left top : Int32) {width height thickness : Int32}
    (hw : 1 ≤ width.toInt) (hh : 1 ≤ height.toInt) (ht : 1 ≤ thickness.toInt) (ink : LineColor) :
    outline c left top width height thickness ink =
      .ok (c.paint (Drawing.outline left top width height thickness ink)) := by
  have hborder := (Drawing.toInt_border hw hh ht).1
  have hfits : 1 ≤ min (min thickness width) height ∧ min (min thickness width) height ≤ width ∧
      min (min thickness width) height ≤ height := by
    simp only [Int32.le_iff_toInt_le, hborder]
    rw [show (1 : Int32).toInt = 1 from rfl]
    omega
  have hdown := difference_eq (a := height) (b := min (min thickness width) height) (by omega)
    (by omega)
  have hright := difference_eq (a := width) (b := min (min thickness width) height) (by omega)
    (by omega)
  unfold outline Drawing.outline Canvas.paint
  dsimp only [List.foldl_cons, List.foldl_nil]
  rw [ensure_ok hfits, ok_bind, fill_eq hc, ok_bind, hdown, ok_bind, fill_eq (hc.fill _), ok_bind,
    fill_eq ((hc.fill _).fill _), ok_bind, hright, ok_bind]
  exact fill_eq (((hc.fill _).fill _).fill _) _

/-- A border of no thickness does not pass. -/
example : outline (.blank 1 1) 0 0 2 2 0 .black = .error .length := by decide

theorem placeholder_eq {c : Canvas} (hc : Fits c) (left top : Int32) :
    placeholder c left top = .ok (c.paint (Drawing.placeholder left top)) :=
  outline_eq hc left top (by decide) (by decide) (by decide) .black

theorem foldlM_eq_ok {α σ ε : Type} {P : σ → Prop} {f : σ → α → Except ε σ} {g : σ → α → σ}
    {xs : List α} (h : ∀ s, P s → ∀ x ∈ xs, f s x = .ok (g s x) ∧ P (g s x)) {s : σ} (hs : P s) :
    xs.foldlM f s = .ok (xs.foldl g s) ∧ P (xs.foldl g s) := by
  induction xs generalizing s with
  | nil => exact ⟨rfl, hs⟩
  | cons x xs ih =>
    obtain ⟨hstep, hnext⟩ := h s hs x List.mem_cons_self
    rw [List.foldlM_cons, hstep, List.foldl_cons]
    exact ih (fun s hs y hy => h s hs y (List.mem_cons_of_mem x hy)) hnext

theorem modules_eq {c : Canvas} (hc : Fits c) {s : Qr.Symbol} (hs : s.size ≤ 177)
    (left top side : Int32) :
    modules c s left top side = .ok (c.paint (Drawing.modules s left top side)) := by
  have hmodule (c : Canvas) (hc : Fits c) (y : Nat) (hy : y ∈ List.range s.size) (x : Nat)
      (hx : x ∈ List.range s.size) :
      darkModule s left top side c x y = .ok (if s.isDark x y then c.fill
        ⟨clampedAdd left (clampedMul (Int32.ofNat x) side),
          clampedAdd top (clampedMul (Int32.ofNat y) side), side, side, .black⟩ else c) := by
    rw [List.mem_range] at hx hy
    unfold darkModule
    split
    · rw [signed_eq (by omega), signed_eq (by omega)]
      exact fill_eq hc _
    · rfl
  have hrow (c : Canvas) (hc : Fits c) (y : Nat) (hy : y ∈ List.range s.size) :=
    foldlM_eq_ok (P := Fits) (fun c hc x hx => ⟨hmodule c hc y hy x hx, by
      split
      · exact hc.fill _
      · exact hc⟩) hc
  unfold Drawing.modules Canvas.paint
  rw [List.foldl_flatMap]
  simp only [List.foldl_filterMap]
  refine (foldlM_eq_ok (P := Fits) hrow hc).1.trans (congrArg Except.ok ?_)
  refine List.foldl_ext _ _ _ fun c y _ => List.foldl_ext _ _ _ fun c x _ => ?_
  split <;> rfl

theorem element_eq {c : Canvas} (hc : Fits c) (density : Density) (e : Element) :
    element density c e = .ok (c.paint (e.fills density)) := by
  have hlength (dots : Int32) := Drawing.one_le_pixelLength dots density
  cases e with
  | graphicBox b =>
    exact outline_eq hc _ _ (hlength b.width) (hlength b.height) (hlength b.thickness) b.color
  | qrCode q =>
    simp only [element, Element.fills, Drawing.qrCode]
    cases hs : Drawing.symbol? q with
    | none => exact placeholder_eq hc _ _
    | some s => exact modules_eq hc (Qr.size_le_of_symbol? hs) _ _ _
  | customCommand e => exact placeholder_eq hc _ _
  | text e => exact placeholder_eq hc _ _
  | native e => exact placeholder_eq hc _ _

theorem side_eq (dots : Int32) (density : Density) :
    side dots density = .ok (UInt32.ofNat (Label.canvasSide dots density)) := by
  have hlength := Drawing.toInt_pixelLength dots density
  have hword := (Drawing.pixelLength dots density).toInt_lt
  have hle : 1 ≤ UInt32.ofNat (Drawing.pixelLength dots density).toInt.toNat := by
    rw [UInt32.le_iff_toNat_le, toNat_ofNat (by omega)]
    change 1 ≤ _
    omega
  unfold side Label.canvasSide
  rw [unsigned_eq (by omega) (by omega)]
  rw [ok_bind, ensure_ok hle]
  rfl

end Checked

namespace Label

/-- The picture of a label with both dimensions can be drawn on words: nothing overflows, no border
is wider than its box, and no pixel that is set is off the canvas. -/
theorem checked_picture {l : Label} {width height : Int32} (hwidth : l.width = some width)
    (hheight : l.height = some height) :
    ∃ canvas, Checked.picture l width height = .ok canvas ∧ l.preview = .ok canvas := by
  have hpreview := preview_eq_ok hwidth hheight
  refine ⟨_, ?_, hpreview⟩
  have hw := canvasSide_le width l.config.density
  have hh := canvasSide_le height l.config.density
  have hfills := (Checked.foldlM_eq_ok (P := Checked.Fits)
    (fun c hc e (_ : e ∈ l.elements) => ⟨Checked.element_eq hc l.config.density e, hc.paint _⟩)
    (Checked.fits_blank hw hh)).1
  unfold Checked.picture
  rw [Checked.side_eq, Checked.ok_bind, Checked.side_eq, Checked.ok_bind,
    Checked.toNat_ofNat hw, Checked.toNat_ofNat hh, hfills]
  unfold fills Canvas.paint
  rw [List.foldl_flatMap]

def extreme : Label where
  width := some Int32.minValue
  height := some 80
  elements :=
    [ .graphicBox
        { position := .ofDots Int32.maxValue Int32.minValue, width := Int32.maxValue,
          height := Int32.minValue, thickness := Int32.maxValue },
      .graphicBox
        { position := .ofDots Int32.minValue 5, width := Int32.maxValue, height := Int32.maxValue,
          thickness := Int32.minValue },
      .qrCode
        { text := "1", position := .ofDots Int32.minValue Int32.maxValue,
          options := { magnification := ⟨"2147483647"⟩ } } ]

theorem checked_picture_extreme :
    (extreme.width = some Int32.minValue ∧ extreme.height = some 80) ∧
      ∃ canvas, Checked.picture extreme Int32.minValue 80 = .ok canvas ∧
        extreme.preview = .ok canvas :=
  ⟨⟨rfl, rfl⟩, checked_picture rfl rfl⟩

end Label

end LabelPress
