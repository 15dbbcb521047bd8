import LabelPress.Qr.Symbol
import Mathlib.Data.List.Basic

/-! Symbols as they are assembled. Whatever the mask that wins, a symbol has the side of its version
and shows the fixed modules of its version. -/
namespace LabelPress.Qr

def cells (version : Nat) : Array Cell :=
  (Array.range (side version * side version)).map fun i =>
    cell version (alignmentCentres version) (i % side version) (i / side version)

theorem exists_masked (level : Level) (version : Nat) (words : List UInt8) :
    ∃ data kind, assemble level version words = masked level version (cells version) data kind := by
  unfold assemble
  dsimp only
  apply List.foldlRecOn (motive := fun best : UInt16 × Symbol =>
    ∃ data kind, best.2 = masked level version (cells version) data kind)
  · exact ⟨_, 0, rfl⟩
  · intro best hbest kind _
    unfold better
    split
    · exact ⟨_, kind, rfl⟩
    · exact hbest

theorem size_assemble (level : Level) (version : Nat) (words : List UInt8) :
    (assemble level version words).size = side version := by
  obtain ⟨data, kind, heq⟩ := exists_masked level version words
  rw [heq]
  rfl

theorem exists_assemble {level : Level} {text : List UInt8} {s : Symbol}
    (h : symbol? level text = some s) :
    ∃ version ≤ 40, ∃ words, s = assemble level version words := by
  obtain ⟨⟨version, segments⟩, hplan, hdata⟩ := Option.bind_eq_some_iff.mp h
  obtain ⟨data, -, hsymbol⟩ := Option.bind_eq_some_iff.mp hdata
  obtain ⟨band, -, hversion⟩ := Option.bind_eq_some_iff.mp hplan
  obtain ⟨version', hleast, heq⟩ := Option.bind_eq_some_iff.mp hversion
  have heq' : version' = version := congrArg Prod.fst (Option.some.inj heq)
  obtain ⟨n, hn, hle⟩ := List.mem_map.mp (List.mem_of_find?_eq_some hleast)
  have hmax : n < 40 := List.mem_range.mp hn
  exact ⟨version, by omega, _, (Option.some.inj hsymbol).symm⟩

theorem size_le_of_symbol? {level : Level} {text : List UInt8} {s : Symbol}
    (h : symbol? level text = some s) : s.size ≤ 177 := by
  obtain ⟨version, hmax, words, heq⟩ := exists_assemble h
  rw [heq, size_assemble, side]
  omega

theorem index_lt {n x y : Nat} (hx : x < n) (hy : y < n) : y * n + x < n * n := by
  calc y * n + x < (y + 1) * n := by
        rw [Nat.succ_mul]
        omega
    _ ≤ n * n := Nat.mul_le_mul_right n hy

theorem getD_cells {version x y : Nat} (hx : x < side version) (hy : y < side version) :
    (cells version).getD (y * side version + x) .data =
      cell version (alignmentCentres version) x y := by
  have hindex := index_lt hx hy
  have hmod : (y * side version + x) % side version = x := by
    rw [Nat.mul_add_mod_self_right, Nat.mod_eq_of_lt hx]
  have hdiv : (y * side version + x) / side version = y := by
    rw [Nat.add_comm, Nat.add_mul_div_right x y (by omega), Nat.div_eq_of_lt hx, Nat.zero_add]
  simp [cells, Array.getD_eq_getD_getElem?, hindex, hmod, hdiv]

theorem isDark_assemble {version x y : Nat} {dark : Bool} (hx : x < side version)
    (hy : y < side version) (h : cell version (alignmentCentres version) x y = .fixed dark)
    (level : Level) (words : List UInt8) : (assemble level version words).isDark x y = dark := by
  obtain ⟨data, kind, heq⟩ := exists_masked level version words
  have hindex := index_lt hx hy
  have hcell := getD_cells hx hy
  rw [h] at hcell
  rw [Array.getD_eq_getD_getElem?] at hcell
  rw [heq]
  unfold Symbol.isDark masked
  simp [hx, hy, hindex, hcell]

theorem isDark_of_symbol? {level : Level} {text : List UInt8} {s : Symbol}
    (h : symbol? level text = some s) {x y : Nat} {dark : Bool} (hx : x < 17) (hy : y < 17)
    (hcell : ∀ version, cell version (alignmentCentres version) x y = .fixed dark) :
    x < s.size ∧ y < s.size ∧ s.isDark x y = dark := by
  obtain ⟨version, -, words, heq⟩ := exists_assemble h
  have hside : 17 ≤ side version := by
    unfold side
    omega
  rw [heq, size_assemble]
  exact ⟨by omega, by omega, isDark_assemble (by omega) (by omega) (hcell version) level words⟩

theorem cell_corner (version : Nat) :
    cell version (alignmentCentres version) 0 0 = .fixed true ∧
      cell version (alignmentCentres version) 1 1 = .fixed false ∧
      cell version (alignmentCentres version) 2 2 = .fixed true := by
  simp [cell, finderCell?, ring, distance]

/-- In the corner of a symbol there is a finder: a dark ring, a light ring and a dark square. -/
theorem isDark_corner {level : Level} {text : List UInt8} {s : Symbol}
    (h : symbol? level text = some s) :
    2 < s.size ∧ s.isDark 1 1 = false ∧ s.isDark 2 2 = true := by
  obtain ⟨-, -, hlight⟩ := isDark_of_symbol? h (by decide) (by decide) fun version =>
    (cell_corner version).2.1
  obtain ⟨hsize, -, hdark⟩ := isDark_of_symbol? h (by decide) (by decide) fun version =>
    (cell_corner version).2.2
  exact ⟨hsize, hlight, hdark⟩

theorem isDark_origin {level : Level} {text : List UInt8} {s : Symbol}
    (h : symbol? level text = some s) : 0 < s.size ∧ s.isDark 0 0 = true :=
  (isDark_of_symbol? h (by decide) (by decide) fun version => (cell_corner version).1).2

end LabelPress.Qr
