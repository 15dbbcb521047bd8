import LabelPress.Proofs.Zpl.Parameter
import LabelPress.Proofs.Zpl.Slot

/-! The commands of a program, told apart. A command ends where the next caret is, except that field
data and boxes take the separator behind them along. If no parameter has a caret in it, the text of
a sequence of commands has only this one reading. -/
namespace LabelPress.Zpl

inductive Ending
  | next
  | line
  | separator

def Ending.zpl : Ending → String
  | next => ""
  | line => "\n"
  | separator => fieldSeparator

def Ending.lineEnd : Ending → List Char
  | line => ['\n']
  | _ => []

/-- A part of a program. The setup of a QR symbol is apart because its magnification may have commas
and line ends in it. -/
inductive Piece
  | command (mnemonic : String) (parameters : List String) (ending : Ending)
  | qrSetup (rotation : Rotation) (model : QrModel) (magnification : String)
      (errorCorrection : QrErrorCorrection)
  | field (data : String)

namespace Piece

def zpl : Piece → String
  | command mnemonic parameters ending => Zpl.command mnemonic parameters ++ ending.zpl
  | qrSetup rotation model magnification errorCorrection =>
    commandLine Mnemonic.qrCode
      [rotation.token, model.token, magnification, errorCorrection.token]
  | field data => fieldData data ++ fieldSeparator

/-- Mnemonics of two characters that do not stand for another kind of piece, and parameters without
the characters that part commands. -/
def Legal : Piece → Prop
  | command mnemonic parameters ending =>
    (∃ a b, mnemonic.toList = [a, b] ∧ a ≠ '^' ∧ b ≠ '^') ∧
    (mnemonic ∈ [Mnemonic.qrCode, Mnemonic.fieldData, Mnemonic.fieldSeparator] → ending = .next) ∧
    parameters ≠ [] ∧ ∀ p ∈ parameters, Clean p
  | qrSetup _ _ magnification _ => '^' ∉ magnification.toList
  | field data => '^' ∉ data.toList

def body : Piece → List Char
  | command mnemonic parameters ending =>
    mnemonic.toList ++ ((",".intercalate parameters).toList ++ ending.lineEnd)
  | qrSetup rotation model magnification errorCorrection =>
    Mnemonic.qrCode.toList ++ (rotation.token.toList ++ ',' :: (model.token.toList ++
      ',' :: (magnification.toList ++ ',' :: (errorCorrection.token.toList ++ ['\n']))))
  | field data => Mnemonic.fieldData.toList ++ data.toList

def closed : Piece → Bool
  | command _ _ .separator => true
  | field _ => true
  | _ => false

def closing (p : Piece) : List Char := if p.closed then fieldSeparator.toList else []

theorem toList_zpl (p : Piece) : p.zpl.toList = '^' :: (p.body ++ p.closing) := by
  cases p with
  | command m ps e =>
    cases e <;> simp [zpl, body, closing, closed, Zpl.command, Ending.zpl, Ending.lineEnd]
  | qrSetup r m g e => simp [zpl, body, closing, closed, commandLine, Zpl.command]
  | field d => simp [zpl, body, closing, closed, fieldData, Zpl.command]

theorem not_mem_intercalate {c : Char} (hc : c ≠ ',') {ps : List String}
    (h : ∀ p ∈ ps, c ∉ p.toList) : c ∉ (",".intercalate ps).toList := by
  induction ps with
  | nil => simp
  | cons p ps ih =>
    have hp := h p List.mem_cons_self
    have hps := ih fun q hq => h q (List.mem_cons_of_mem p hq)
    cases ps with
    | nil => simpa using hp
    | cons q qs =>
      rw [String.intercalate_cons_cons, String.toList_append, String.toList_append]
      simp only [List.mem_append, not_or]
      exact ⟨⟨hp, by simpa using hc⟩, hps⟩

theorem Ending.eq_of_append {s t : List Char} (hs : '\n' ∉ s) (ht : '\n' ∉ t) {e f : Ending}
    (hclosed : e = .separator ↔ f = .separator) (h : s ++ e.lineEnd = t ++ f.lineEnd) :
    s = t ∧ e = f := by
  have hline (s : List Char) (hs : '\n' ∉ s) (e : Ending) :
      '\n' ∈ s ++ e.lineEnd ↔ e = .line := by
    cases e <;> simp [Ending.lineEnd, hs]
  have hlines : e = .line ↔ f = .line := by rw [← hline s hs, h, hline t ht]
  cases e <;> cases f <;> simp_all [Ending.lineEnd]

section

variable {m : String} {ps : List String} {e : Ending}

theorem Legal.parameters (h : (command m ps e).Legal) :
    '\n' ∉ (",".intercalate ps).toList ∧ CommaFree ps :=
  ⟨not_mem_intercalate (by decide) fun p hp hmem => (h.2.2.2 p hp _ hmem).2.2 rfl,
    h.2.2.1, fun p hp hmem => (h.2.2.2 p hp _ hmem).2.1 rfl⟩

theorem Legal.length_mnemonic (h : (command m ps e).Legal) : m.toList.length = 2 := by
  obtain ⟨⟨a, b, hm, -⟩, -⟩ := h
  rw [hm]
  rfl

/-- The setup of a symbol is a line, other commands with its mnemonic are not. -/
theorem body_ne_qrSetup (h : (command m ps e).Legal) (r : Rotation) (model : QrModel) (g : String)
    (c : QrErrorCorrection) : (command m ps e).body ≠ (qrSetup r model g c).body := by
  intro heq
  obtain ⟨hm, hrest⟩ := List.append_inj heq h.length_mnemonic
  have he : e = .next := h.2.1 (by simp [String.toList_inj.mp hm])
  have hline : '\n' ∈ (",".intercalate ps).toList ++ e.lineEnd := by
    rw [hrest]
    simp
  rw [he] at hline
  exact h.parameters.1 (by simpa [Ending.lineEnd] using hline)

theorem body_ne_field (h : (command m ps e).Legal) (hclosed : (command m ps e).closed = true)
    (data : String) : (command m ps e).body ≠ (field data).body := by
  intro heq
  obtain ⟨hm, -⟩ := List.append_inj heq h.length_mnemonic
  have he : e = .next := h.2.1 (by simp [String.toList_inj.mp hm])
  simp [he, closed] at hclosed

theorem command_inj {n : String} {qs : List String} {f : Ending} (hp : (command m ps e).Legal)
    (hq : (command n qs f).Legal) (hclosed : (command m ps e).closed = (command n qs f).closed)
    (h : (command m ps e).body = (command n qs f).body) : command m ps e = command n qs f := by
  obtain ⟨hmn, hrest⟩ := List.append_inj h (by rw [hp.length_mnemonic, hq.length_mnemonic])
  have hseparator : e = .separator ↔ f = .separator := by
    cases e <;> cases f <;> simp_all [closed]
  obtain ⟨hparameters, rfl⟩ :=
    Ending.eq_of_append hp.parameters.1 hq.parameters.1 hseparator hrest
  have hcommand : Zpl.command m ps = Zpl.command m qs := by
    rw [Zpl.command, String.toList_inj.mp hparameters, Zpl.command]
  rw [String.toList_inj.mp hmn, hp.parameters.2.command_inj hq.parameters.2 hcommand]

theorem qrSetup_inj {r s : Rotation} {m n : QrModel} {g k : String} {c d : QrErrorCorrection}
    (h : (qrSetup r m g c).body = (qrSetup s n k d).body) : qrSetup r m g c = qrSetup s n k d := by
  obtain ⟨rfl, hmodel⟩ := Lettered.append_inj (List.append_cancel_left h)
  obtain ⟨rfl, hrest⟩ := Lettered.append_inj (List.cons.inj hmodel).2
  have hlength : (',' :: (c.token.toList ++ ['\n'])).length =
      (',' :: (d.token.toList ++ ['\n'])).length := by
    simp only [List.length_cons, List.length_append, Lettered.length_token]
  obtain ⟨hmagnification, hcorrection⟩ := List.append_inj' (List.cons.inj hrest).2 hlength
  obtain ⟨rfl, -⟩ := Lettered.append_inj (List.cons.inj hcorrection).2
  rw [String.toList_inj.mp hmagnification]

end

theorem body_inj {p q : Piece} (hp : p.Legal) (hq : q.Legal) (hclosed : p.closed = q.closed)
    (h : p.body = q.body) : p = q := by
  cases p with
  | command m ps e =>
    cases q with
    | command n qs f => exact command_inj hp hq hclosed h
    | qrSetup r n g c => exact absurd h (body_ne_qrSetup hp r n g c)
    | field d => exact absurd h (body_ne_field hp hclosed d)
  | qrSetup r m g c =>
    cases q with
    | command n qs f => exact absurd h.symm (body_ne_qrSetup hq r m g c)
    | qrSetup s n k d => exact qrSetup_inj h
    | field d => cases hclosed
  | field d =>
    cases q with
    | command n qs f => exact absurd h.symm (body_ne_field hq hclosed.symm d)
    | qrSetup s n k c => cases hclosed
    | field d' => rw [String.toList_inj.mp (List.append_cancel_left h)]

theorem caret_not_mem_body {p : Piece} (h : p.Legal) : '^' ∉ p.body := by
  cases p with
  | command m ps e =>
    obtain ⟨⟨a, b, hm, ha, hb⟩, -, -, hps⟩ := h
    have hparameters : '^' ∉ (",".intercalate ps).toList :=
      not_mem_intercalate (by decide) fun p hp hmem => (hps p hp _ hmem).1 rfl
    have hline : '^' ∉ e.lineEnd := by cases e <;> simp [Ending.lineEnd]
    rw [body, hm]
    simp only [List.mem_append, List.mem_cons, not_or]
    exact ⟨⟨ha.symm, hb.symm, List.not_mem_nil⟩, hparameters, hline⟩
  | qrSetup r m g c =>
    have hr : '^' ∉ r.token.toList := fun hmem => (Lettered.clean_token _ _ hmem).1 rfl
    have hm : '^' ∉ m.token.toList := fun hmem => (Lettered.clean_token _ _ hmem).1 rfl
    have hc : '^' ∉ c.token.toList := fun hmem => (Lettered.clean_token _ _ hmem).1 rfl
    have hg : '^' ∉ g.toList := h
    simp [body, Mnemonic.qrCode, hr, hm, hc, hg]
  | field d =>
    have hd : '^' ∉ d.toList := h
    simp [body, Mnemonic.fieldData, hd]

/-- Text up to the next caret is told apart from what follows. -/
theorem cut_at_caret {s t u v : List Char} (hs : '^' ∉ s) (ht : '^' ∉ t)
    (hu : ∀ c ∈ u.head?, c = '^') (hv : ∀ c ∈ v.head?, c = '^') (h : s ++ u = t ++ v) :
    s = t ∧ u = v := by
  induction s generalizing t with
  | nil =>
    cases t with
    | nil => exact ⟨rfl, h⟩
    | cons d t =>
      have hd := hu d (by rw [← List.nil_append u, h]; rfl)
      exact absurd (hd ▸ List.mem_cons_self) ht
  | cons c s ih =>
    cases t with
    | nil =>
      have hc := hv c (by rw [← List.nil_append v, ← h]; rfl)
      exact absurd (hc ▸ List.mem_cons_self) hs
    | cons d t =>
      obtain ⟨rfl, hrest⟩ := List.cons.inj h
      obtain ⟨rfl, huv⟩ := ih (fun hmem => hs (List.mem_cons_of_mem c hmem))
        (fun hmem => ht (List.mem_cons_of_mem c hmem)) hrest
      exact ⟨rfl, huv⟩

structure StartsCommand (s : List Char) : Prop where
  caret : ∀ c ∈ s.head?, c = '^'
  notSeparator : ¬ fieldSeparator.toList <+: s

theorem head?_closing {s : List Char} (hs : ∀ c ∈ s.head?, c = '^') (p : Piece) :
    ∀ c ∈ (p.closing ++ s).head?, c = '^' := by
  unfold closing
  split
  · simp [fieldSeparator, commandLine, Zpl.command]
  · exact hs

theorem StartsCommand.append {p : Piece} (hp : p.Legal) {s : List Char} (hs : StartsCommand s) :
    StartsCommand (p.zpl.toList ++ s) := by
  rw [toList_zpl, List.cons_append, List.append_assoc]
  refine ⟨by simp, fun hprefix => ?_⟩
  have hbody : ['F', 'S', '\n'] <+: p.body ++ (p.closing ++ s) :=
    (List.cons_prefix_cons.mp hprefix).2
  cases p with
  | command m ps e =>
    obtain ⟨⟨a, b, hm, -⟩, hreserved, -⟩ := id hp
    have hparameters := hp.parameters.1
    rw [body, hm] at hbody
    simp only [List.cons_append, List.nil_append, List.cons_prefix_cons] at hbody
    obtain ⟨rfl, rfl, hline⟩ := hbody
    obtain rfl : e = .next :=
      hreserved (by simp [Mnemonic.fieldSeparator, ← String.toList_inj, hm])
    have hfollows := head?_closing hs.caret (command m ps .next)
    simp only [Ending.lineEnd, List.append_nil] at hline
    cases hI : (",".intercalate ps).toList with
    | nil =>
      obtain ⟨t, ht⟩ := hline
      rw [hI, List.nil_append] at ht
      exact absurd (hfollows '\n' (by rw [← ht]; rfl)) (by decide)
    | cons c cs =>
      rw [hI, List.cons_append, List.cons_prefix_cons] at hline
      rw [hI, ← hline.1] at hparameters
      exact hparameters List.mem_cons_self
  | qrSetup r m g c => simp [body, Mnemonic.qrCode] at hbody
  | field d => simp [body, Mnemonic.fieldData] at hbody

theorem startsCommand_flatMap {ps : List Piece} (h : ∀ p ∈ ps, p.Legal) :
    StartsCommand (ps.flatMap fun p => p.zpl.toList) := by
  induction ps with
  | nil => exact ⟨by simp, by simp [fieldSeparator, commandLine, Zpl.command]⟩
  | cons p ps ih =>
    rw [List.forall_mem_cons] at h
    exact (ih h.2).append h.1

theorem append_inj {p q : Piece} (hp : p.Legal) (hq : q.Legal) {r s : List Char}
    (hr : StartsCommand r) (hs : StartsCommand s) (h : p.zpl.toList ++ r = q.zpl.toList ++ s) :
    p = q ∧ r = s := by
  rw [toList_zpl, toList_zpl, List.cons_append, List.cons_append, List.append_assoc,
    List.append_assoc] at h
  obtain ⟨hbody, hrest⟩ := cut_at_caret (caret_not_mem_body hp) (caret_not_mem_body hq)
    (head?_closing hr.caret p) (head?_closing hs.caret q) (List.cons.inj h).2
  -- No rest starts with the separator, so both pieces are closed by one or neither is.
  have hclosed : p.closed = q.closed := by
    unfold closing at hrest
    cases hcp : p.closed <;> cases hcq : q.closed <;> simp only [hcp, hcq] at hrest ⊢
    · exact absurd ⟨s, hrest.symm⟩ hr.notSeparator
    · exact absurd ⟨r, hrest⟩ hs.notSeparator
  obtain rfl := body_inj hp hq hclosed hbody
  exact ⟨rfl, List.append_cancel_left hrest⟩

/-- A program has only one reading. -/
theorem flatMap_inj {ps qs : List Piece} (hps : ∀ p ∈ ps, p.Legal) (hqs : ∀ q ∈ qs, q.Legal)
    (h : ps.flatMap (fun p => p.zpl.toList) = qs.flatMap fun q => q.zpl.toList) : ps = qs := by
  induction ps generalizing qs with
  | nil =>
    cases qs with
    | nil => rfl
    | cons q qs =>
      rw [List.flatMap_cons, toList_zpl] at h
      cases h
  | cons p ps ih =>
    cases qs with
    | nil =>
      rw [List.flatMap_cons, toList_zpl] at h
      cases h
    | cons q qs =>
      rw [List.forall_mem_cons] at hps hqs
      rw [List.flatMap_cons, List.flatMap_cons] at h
      obtain ⟨rfl, hrest⟩ := append_inj hps.1 hqs.1 (startsCommand_flatMap hps.2)
        (startsCommand_flatMap hqs.2) h
      rw [ih hps.2 hqs.2 hrest]

end Piece

end LabelPress.Zpl
