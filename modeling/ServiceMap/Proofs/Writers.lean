import Mathlib
import ServiceMap.Diagram.Dot
import ServiceMap.Diagram.Mermaid
import ServiceMap.Listing
import ServiceMap.Report.Text

/-! What the writers do to the place they write to. Each one puts a single text there, however many
lines it comes in, and goes no further than the first piece for which there is no room. -/

namespace ServiceMap

theorem run_bind {ε σ α β : Type} (x : ExceptT ε (StateM σ) α) (f : α → ExceptT ε (StateM σ) β)
    (s : σ) :
    (x >>= f).run s = match x.run s with
      | (.ok a, s) => (f a).run s
      | (.error e, s) => (.error e, s) := by
  change (x >>= f).run.run s = match x.run.run s with
    | (.ok a, s) => (f a).run.run s
    | (.error e, s) => (.error e, s)
  rw [ExceptT.run_bind, StateT.run_bind]
  cases x.run.run s with
  | mk r after => cases r <;> rfl

namespace Sink

theorem extract_of_size_le {a : ByteArray} {room : Nat} (fits : a.size ≤ room) :
    a.extract 0 room = a :=
  ByteArray.ext (by simpa using Array.extract_eq_self_of_le fits)

/-- It is all the same to the sink whether bytes come in one piece or in two. -/
theorem write_append (s : Sink) (a b : ByteArray) :
    s.write (a ++ b) = match s.write a with
      | (none, after) => after.write b
      | failed => failed := by
  obtain ⟨written, room | room⟩ := s
  · simp [write, ByteArray.append_assoc]
  · by_cases fits : a.size ≤ room
    · have cut : (a ++ b).extract 0 room = a ++ b.extract 0 (room - a.size) := by
        rw [ByteArray.extract_append, extract_of_size_le fits, Nat.zero_sub]
      simp [write, fits, cut, extract_of_size_le fits, ByteArray.append_assoc, Nat.sub_sub,
        Nat.le_sub_iff_add_le' fits]
    · have past : b.extract (0 - a.size) (room - a.size) = .empty :=
        ByteArray.extract_eq_empty_iff.mpr (by omega)
      have cut : (a ++ b).extract 0 room = a.extract 0 room := by
        rw [ByteArray.extract_append, past, ByteArray.append_empty]
      have short : ¬a.size + b.size ≤ room := by omega
      have used : room - (a.size + b.size) = room - a.size := by omega
      simp [write, fits, short, cut, used]

end Sink

namespace Writing

theorem run_put (kind : IoFault → Error) (text : String) (s : Sink) :
    (put kind text).run s = match s.write text.toUTF8 with
      | (none, after) => (.ok (), after)
      | (some e, after) => (.error (kind e), after) := by
  have written : (modifyGet fun s => s.write text.toUTF8 : Writing (Option IoFault)).run s =
      (.ok (s.write text.toUTF8).1, (s.write text.toUTF8).2) := rfl
  rw [put, run_bind, written]
  obtain ⟨_ | e, after⟩ := s.write text.toUTF8 <;> rfl

theorem put_append (kind : IoFault → Error) (a b : String) :
    (do put kind a; put kind b) = put kind (a ++ b) := by
  refine ExceptT.ext (funext fun s => ?_)
  show (do put kind a; put kind b).run s = (put kind (a ++ b)).run s
  have bytes : (a ++ b).toUTF8 = a.toUTF8 ++ b.toUTF8 := String.toByteArray_append
  rw [run_bind, run_put, run_put, bytes, Sink.write_append]
  obtain ⟨_ | e, after⟩ := s.write a.toUTF8 <;> simp [run_put]

theorem put_empty (kind : IoFault → Error) : put kind "" = pure () := by
  refine ExceptT.ext (funext fun s => ?_)
  show (put kind "").run s = (.ok (), s)
  rw [run_put]
  obtain ⟨written, room | room⟩ := s
  · simp [Sink.write]
  · have none : ByteArray.empty.extract 0 room = .empty := Sink.extract_of_size_le (Nat.zero_le _)
    simp [Sink.write, none]

/-- One text is written and, unless it is the whole, nothing can follow for want of another. -/
def Puts (kind : IoFault → Error) (whole : Bool) (w : Writing Unit) : Prop :=
  ∃ text, w = if whole then put kind text else do put kind text; throw (.json .notText)

namespace Puts

variable {kind : IoFault → Error} {a b : Bool} {v w : Writing Unit}

theorem put (text : String) : Puts kind true (put kind text) := ⟨text, rfl⟩

theorem nothing : Puts kind true (pure ()) := ⟨"", (put_empty kind).symm⟩

theorem stop : Puts kind false (throw (.json .notText)) := ⟨"", by simp [put_empty]⟩

/-- What comes after a text that is not the whole does not count. -/
theorem bind (first : Puts kind a v) (second : Puts kind b w) : Puts kind (a && b) (do v; w) := by
  obtain ⟨text, rfl⟩ := first
  obtain ⟨rest, rfl⟩ := second
  cases a with
  | false => exact ⟨text, by simp⟩
  | true =>
    refine ⟨text ++ rest, ?_⟩
    cases b <;> simp [← put_append]

theorem forM {α : Type} {f : α → Writing Unit} (each : ∀ x, Puts kind true (f x)) (xs : List α) :
    Puts kind true (xs.forM f) := by
  induction xs with
  | nil => exact nothing
  | cons x xs ih => exact (each x).bind ih

theorem ite {c : Prop} [Decidable c] (yes : Puts kind a v) (no : Puts kind a w) :
    Puts kind a (if c then v else w) := by
  split
  · exact yes
  · exact no

theorem line (text : String) : Puts .io true (line text) := .put _

end Puts

theorem puts_heading (title : String) : Puts .io true (writeHeading title) := (Puts.line _).bind (.line _)

theorem puts_section {α : Type} (title : String) (textLine : α → String) (items : List α) :
    Puts .io true (writeSection title textLine items) :=
  (puts_heading title).bind (.ite (.line _) (.forM (fun _ => .line _) _))

end Writing

open Writing

theorem DeclarationReport.puts_write (d : DeclarationReport) : Puts .io true d.write := by
  have service (name : String) (statuses : List EdgeStatus) :
      Puts .io true (writeService name statuses) :=
    (Puts.line _).bind (.ite (.line _) (.forM (fun _ => .line _) _))
  exact (puts_heading _).bind (.bind (.forM (fun _ => service _ _) _)
    (.bind (.line _) (puts_section _ _ _)))

theorem puts_cycles (cycles : List (List String)) : Puts .io true (writeCycles cycles) :=
  puts_section _ _ _

theorem LanguageReport.puts_write (l : LanguageReport) : Puts .io true l.write :=
  (puts_heading _).bind (.bind (.line _)
    (.bind (.forM (fun _ => .line _) _) (.forM (fun _ => .line _) _)))

theorem puts_overview (d : DeclarationReport) (cycles : List (List String)) :
    Puts .io true (writeOverview d cycles) :=
  d.puts_write.bind (.bind (.line _) (puts_cycles _))

namespace Report

theorem puts_check {α : Type} {write : α → Writing Unit} (puts : ∀ a, Puts .io true (write a)) :
    ∀ part, Puts .io true (writeCheck write part)
  | some a => (Puts.line _).bind (puts a)
  | none => .nothing

theorem puts_any {α : Type} (title : String) (textLine : α → String) (items : List α) :
    Puts .io true (writeAny title textLine items) :=
  .ite .nothing ((Puts.line _).bind (.bind (puts_heading _) (.forM (fun _ => .line _) _)))

theorem puts_edges {P : Type} (r : Report P) : Puts .io true r.writeEdges := by
  unfold writeEdges
  split
  · exact DeclarationReport.puts_write _
  · exact puts_section _ _ _

theorem puts_summary {P : Type} (r : Report P) : Puts .io true r.writeSummary :=
  (Puts.line _).bind (.bind (.line _) (.bind (.line _) (.bind (.line _) (.bind (.line _)
    (.bind (.line _) (.line _))))))

theorem puts_write {P : Type} [FileName P] (r : Report P) : Puts .io true r.write :=
  r.puts_summary.bind (.bind (.line _) (.bind r.puts_edges
    (.bind (puts_check puts_cycles _) (.bind (puts_check (puts_section _ _) _)
      (.bind (puts_check LanguageReport.puts_write _) (.bind (puts_any _ _ _)
        (.bind (puts_any _ _ _) (.bind (puts_any _ _ _) (puts_any _ _ _)))))))))

end Report

theorem Listing.puts_write {P : Type} [FileName P] (l : Listing P) : Puts .io true l.write := by
  have items (label : String) (items : List String) :
      Puts .io true (ListedService.writeItems label items) := .ite .nothing (.line _)
  have service (s : ListedService P) : Puts .io true s.write :=
    (Puts.line _).bind (.bind (items _ _) (.bind (items _ _) (items _ _)))
  exact (Puts.line _).bind (.forM service _)

namespace Rendering

theorem forM_flatMap {α : Type} (xs : List α) (f : α → List String) :
    forM (xs.flatMap f) line = forM xs fun x => forM (f x) line := by
  induction xs with
  | nil => rfl
  | cons x xs ih => rw [List.flatMap_cons, List.forM_append, ih, List.forM_cons]

/-- Lines that are written one by one are written as one text. -/
theorem forM_lines (r : Rendering) : r.lines.forM line = put .io r.text := by
  obtain ⟨lines⟩ := r
  unfold text
  induction lines with
  | nil => exact (put_empty _).symm
  | cons l lines ih =>
    rw [List.map_cons, String.join_cons, ← put_append, ← ih]
    rfl

end Rendering

theorem Mermaid.write_eq (edges : List Edge) (r : Registry) :
    write edges r = put .io (rendering edges r).text := by
  rw [← Rendering.forM_lines, rendering, write, List.filterMap_eq_flatMap_toList]
  simp [List.forM_append, Rendering.forM_flatMap]

theorem Dot.write_eq (edges : List Edge) (r : Registry) :
    write edges r = put .io (rendering edges r).text := by
  rw [← Rendering.forM_lines, rendering, write]
  simp [List.forM_append, Rendering.forM_flatMap]

end ServiceMap
