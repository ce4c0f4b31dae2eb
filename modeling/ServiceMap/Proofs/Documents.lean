import Mathlib
import ServiceMap.Listing
import ServiceMap.Proofs.Writers
import ServiceMap.Report.Document

/-! The JSON documents. One is written as a single text too; but where a path is no text there is
nothing to write for it, and the document ends there. -/

namespace ServiceMap

open Writing

namespace Json

mutual

/-- Whether there is a text wherever one belongs. -/
def isSpelt : Json → Bool
  | bool _ | num _ | str _ => true
  | unspelt => false
  | arr items => itemsSpelt items
  | obj fields => fieldsSpelt fields

def itemsSpelt : List Json → Bool
  | [] => true
  | j :: items => j.isSpelt && itemsSpelt items

def fieldsSpelt : List (String × Json) → Bool
  | [] => true
  | (_, j) :: fields => j.isSpelt && fieldsSpelt fields

end

def refused (e : IoFault) : Error := .json (.io e)

theorem puts_token (text : String) : Puts refused true (token text) := .put _

mutual

/-- A value is written as one text, up to the first place where a text is missing. -/
theorem puts_write (level : Nat) : ∀ j : Json, Puts refused j.isSpelt (j.write level)
  | bool _ | num _ | str _ | arr [] | obj [] => puts_token _
  | unspelt => .stop
  | arr (j :: items) => by
    have inner := (j.puts_write (level + 1)).bind
      ((puts_writeItems (level + 1) items).bind (puts_token (newline level ++ "]")))
    rw [write, isSpelt, itemsSpelt]
    simpa using (puts_token _).bind inner
  | obj ((name, j) :: fields) => by
    have inner := (j.puts_write (level + 1)).bind
      ((puts_writeFields (level + 1) fields).bind (puts_token (newline level ++ "\x7d")))
    rw [write, isSpelt, fieldsSpelt]
    simpa using (puts_token _).bind ((puts_token _).bind inner)

theorem puts_writeItems (level : Nat) :
    ∀ items : List Json, Puts refused (itemsSpelt items) (writeItems level items)
  | [] => .nothing
  | j :: items => by
    have inner := (j.puts_write level).bind (puts_writeItems level items)
    rw [writeItems, itemsSpelt]
    simpa using (puts_token _).bind inner

theorem puts_writeFields (level : Nat) :
    ∀ fields : List (String × Json), Puts refused (fieldsSpelt fields) (writeFields level fields)
  | [] => .nothing
  | (name, j) :: fields => by
    have inner := (j.puts_write level).bind (puts_writeFields level fields)
    rw [writeFields, fieldsSpelt]
    simpa using (puts_token _).bind ((puts_token _).bind inner)

end

@[simp] theorem isSpelt_bool (b : Bool) : (bool b).isSpelt = true := by rw [isSpelt]

@[simp] theorem isSpelt_num (n : Nat) : (num n).isSpelt = true := by rw [isSpelt]

@[simp] theorem isSpelt_str (s : String) : (str s).isSpelt = true := by rw [isSpelt]

@[simp] theorem isSpelt_arr (items : List Json) : (arr items).isSpelt = items.all isSpelt := by
  rw [isSpelt]
  induction items with
  | nil => rfl
  | cons j items ih => rw [itemsSpelt, ih, List.all_cons]

@[simp] theorem isSpelt_obj (fields : List (String × Json)) :
    (obj fields).isSpelt = fields.all fun f => f.2.isSpelt := by
  rw [isSpelt]
  induction fields with
  | nil => rfl
  | cons f fields ih => rw [fieldsSpelt, ih, List.all_cons]

@[simp] theorem isSpelt_strings (l : List String) : (strings l).isSpelt = true := by
  simp [strings]

/-- A document is written with the line feed after it, or up to where a text is missing. -/
theorem writeDocument_form (j : Json) :
    (j.isSpelt = true ∧ ∃ text, j.writeDocument = do token text; line "") ∨
      (j.isSpelt = false ∧ ∃ text, j.writeDocument = do token text; throw (.json .notText)) := by
  obtain ⟨text, written⟩ := j.puts_write 0
  cases spelt : j.isSpelt with
  | true => exact .inl ⟨rfl, text, by rw [writeDocument, written, if_pos spelt]; rfl⟩
  | false =>
    refine .inr ⟨rfl, text, ?_⟩
    rw [writeDocument, written, spelt]
    simp [token]
    rfl

end Json

section

variable {P : Type} [FileName P]

def FileName.isText (p : P) : Bool := (FileName.text? p).isSome

@[simp] theorem Json.isSpelt_path (p : P) : (path p).isSpelt = FileName.isText p := by
  unfold path FileName.isText
  cases FileName.text? p <;> simp [isSpelt]

@[simp] theorem CallSite.isSpelt_toJson (c : CallSite P) :
    c.toJson.isSpelt = FileName.isText c.file := by
  unfold toJson
  split <;> simp

@[simp] theorem Warning.isSpelt_toJson (w : Warning P) :
    w.toJson.isSpelt = w.file?.all FileName.isText := by
  cases w <;> simp [toJson, file?]

@[simp] theorem BoundaryViolation.isSpelt_toJson (v : BoundaryViolation P) :
    v.toJson.isSpelt = FileName.isText v.file := by
  simp [toJson]

@[simp] theorem ListedService.isSpelt_toJson (s : ListedService P) :
    s.toJson.isSpelt = FileName.isText s.root := by
  simp [toJson, Dependency.toJson]

@[simp] theorem Edge.isSpelt_toJson (e : Edge) : e.toJson.isSpelt = true := by
  simp [toJson, fields, NameSet.toJson]

@[simp] theorem DeclarationReport.isSpelt_toJson (d : DeclarationReport) : d.toJson.isSpelt = true := by
  simp [toJson, EdgeStatus.toJson, UnusedDeclaration.toJson, Edge.fields, NameSet.toJson]

@[simp] theorem LanguageReport.isSpelt_toJson (l : LanguageReport) : l.toJson.isSpelt = true := by
  simp [toJson, LanguageSummary.toJson, LanguageMismatch.toJson]

@[simp] theorem ServiceSummary.isSpelt_toJson (s : ServiceSummary) : s.toJson.isSpelt = true := by
  simp [toJson]

/-- The paths that a report shows. -/
def Report.files (r : Report P) : List P :=
  (r.boundaries.getD []).map BoundaryViolation.file ++ r.graph.unresolved.map CallSite.file ++
    r.graph.selfCalls.map CallSite.file ++ r.graph.warnings.filterMap Warning.file?

namespace Report

theorem isSpelt_part {α : Type} {name : String} {toJson : α → Json} (a : Option α) :
    ((part name toJson a).all fun f => f.2.isSpelt) = a.all fun a => (toJson a).isSpelt := by
  cases a <;> simp [part]

theorem isSpelt_toJson (r : Report P) : r.toJson.isSpelt = r.files.all FileName.isText := by
  have listed {α : Type} (l : List α) : (l.all fun _ => true) = true := by simp
  have cycles : (r.circular.all fun _ => true) = true := by cases r.circular <;> rfl
  have found : (r.boundaries.all fun l => l.all fun v => FileName.isText v.file) =
      (r.boundaries.getD []).all fun v => FileName.isText v.file := by cases r.boundaries <;> rfl
  have warned : (r.graph.warnings.filterMap Warning.file?).all FileName.isText =
      r.graph.warnings.all fun w => w.file?.all FileName.isText := by
    rw [List.all_filterMap]
    rfl
  simp [toJson, files, isSpelt_part, boundariesJson, cyclesJson, Function.comp_def, listed, cycles,
    found, warned, -List.all_filterMap]

end Report
end
end ServiceMap
