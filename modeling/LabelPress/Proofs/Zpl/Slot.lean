import LabelPress.Zpl.Command
import Mathlib.Data.List.Induction
import Mathlib.Data.List.Pairwise
import Mathlib.Data.Set.Operations

/-! The slots of a command. Each parameter after the first brings its comma along, so a printer that
cuts what follows the mnemonic at commas finds every parameter in the place it was written to, an
empty one too. -/
namespace LabelPress.Zpl

/-- Parameters without a comma in them. There is at least one, because none at all are written like
a single empty one. -/
structure CommaFree (parameters : List String) : Prop where
  nonempty : parameters ≠ []
  noComma : ∀ p ∈ parameters, ',' ∉ p.toList

def slots (text : List Char) : List String := (text.splitOn ',').map String.ofList

/-- What stands in a command between commas, behind the caret and the mnemonic. -/
def slots? (mnemonic zpl : String) : Option (List String) :=
  (zpl.toList.dropPrefix? ('^' :: mnemonic.toList)).map slots

theorem slots_of_not_mem {p : String} (hp : ',' ∉ p.toList) : slots p.toList = [p] := by
  rw [slots, List.splitOn_eq_singleton hp, List.map_singleton, String.ofList_toList]

theorem slots_append_comma (text : List Char) {p : String} (hp : ',' ∉ p.toList) :
    slots (text ++ ',' :: p.toList) = slots text ++ [p] := by
  rw [slots, List.splitOn_append_cons_self, List.map_append]
  exact congrArg _ (slots_of_not_mem hp)

variable {m p zpl : String} {ps qs : List String}

theorem slots?_eq_some_iff :
    slots? m zpl = some ps ↔ ∃ text, zpl.toList = '^' :: (m.toList ++ text) ∧ slots text = ps := by
  simp [slots?, List.dropPrefix?_eq_some_iff]

theorem slots?_append_comma (h : slots? m zpl = some ps) (hp : ',' ∉ p.toList) :
    slots? m (zpl ++ "," ++ p) = some (ps ++ [p]) := by
  obtain ⟨text, hzpl, rfl⟩ := slots?_eq_some_iff.mp h
  refine slots?_eq_some_iff.mpr ⟨text ++ ',' :: p.toList, ?_, slots_append_comma text hp⟩
  simp [hzpl]

theorem command_singleton (m p : String) : command m [p] = "^" ++ m ++ p := by
  rw [command, String.intercalate_singleton]

theorem command_concat (m : String) (hps : ps ≠ []) (p : String) :
    command m (ps ++ [p]) = command m ps ++ "," ++ p := by
  rw [command, String.intercalate_append_of_ne_nil hps (List.cons_ne_nil p []),
    String.intercalate_singleton, command]
  simp only [String.append_assoc]

theorem slots?_command (m : String) (h : CommaFree ps) : slots? m (command m ps) = some ps := by
  -- The last parameter apart, as it is written behind those before it with its own comma.
  induction ps using List.reverseRecOn with
  | nil => exact absurd rfl h.nonempty
  | append_singleton ps p ih =>
    have hp : ',' ∉ p.toList := h.noComma p (by simp)
    by_cases hps : ps = []
    · subst hps
      refine slots?_eq_some_iff.mpr ⟨p.toList, ?_, slots_of_not_mem hp⟩
      simp [command_singleton]
    · rw [command_concat m hps]
      exact slots?_append_comma
        (ih ⟨hps, fun q hq => h.noComma q (List.mem_append_left [p] hq)⟩) hp

theorem CommaFree.command_inj (hps : CommaFree ps) (hqs : CommaFree qs)
    (h : command m ps = command m qs) : ps = qs := by
  have hread := slots?_command m hps
  rw [h, slots?_command m hqs] at hread
  exact (Option.some.inj hread).symm

/-- Behind the caret and the mnemonic the parameters are found between commas, in their order and
the empty ones too. So different parameters never give the same command, and a line of its own only
adds the line end. -/
theorem command_keeps_slots (mnemonic : String) :
    (∀ ps, CommaFree ps → slots? mnemonic (command mnemonic ps) = some ps) ∧
      Set.InjOn (command mnemonic) {ps | CommaFree ps} ∧
      ∀ ps, commandLine mnemonic ps = command mnemonic ps ++ "\n" := by
  refine ⟨fun ps hps => slots?_command mnemonic hps, fun ps hps qs hqs h => ?_, fun ps => rfl⟩
  exact CommaFree.command_inj hps hqs h

theorem command_keeps_slots_empty :
    CommaFree ["N", "2", "", "M"] ∧ CommaFree ["N", "2", "M"] ∧
      slots? Mnemonic.qrCode "^BQN,2,,M" = some ["N", "2", "", "M"] ∧
      command Mnemonic.qrCode ["N", "2", "", "M"] ≠ command Mnemonic.qrCode ["N", "2", "M"] ∧
      commandLine Mnemonic.qrCode ["N", "2", "", "M"] = "^BQN,2,,M\n" := by
  have hfour : CommaFree ["N", "2", "", "M"] := ⟨by decide, by decide⟩
  have hthree : CommaFree ["N", "2", "M"] := ⟨by decide, by decide⟩
  have hzpl : command Mnemonic.qrCode ["N", "2", "", "M"] = "^BQN,2,,M" := by decide
  obtain ⟨hslots, hinj, hline⟩ := command_keeps_slots Mnemonic.qrCode
  refine ⟨hfour, hthree, hzpl ▸ hslots _ hfour, fun h => ?_, ?_⟩
  · exact absurd (hinj hfour hthree h) (by decide)
  · rw [hline, hzpl]
    decide

end LabelPress.Zpl
