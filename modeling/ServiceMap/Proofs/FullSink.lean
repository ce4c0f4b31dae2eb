import Mathlib
import ServiceMap.Proofs.Documents
import ServiceMap.Text.Utf8

/-! What a place with too little room takes of an output: the bytes for which there is room, and the
failure is that of the first byte for which there is none. -/

namespace ServiceMap

open Writing

theorem Text.length_utf8 (text : String) : (utf8 text).length = text.utf8ByteSize := by
  simp [utf8]

namespace Writing

theorem run_put_ofRoom (kind : IoFault → Error) (text : String) (room : Nat) :
    (put kind text).run (.ofRoom room) =
      (if text.utf8ByteSize ≤ room then .ok () else .error (kind .full),
        ⟨text.toUTF8.extract 0 room, some (room - text.utf8ByteSize)⟩) := by
  rw [run_put]
  by_cases fits : text.utf8ByteSize ≤ room <;> simp [Sink.write, Sink.ofRoom, fits]

theorem run_put_endless (kind : IoFault → Error) (text : String) :
    (put kind text).run .endless = (.ok (), ⟨text.toUTF8, none⟩) := by
  simp [run_put, Sink.write, Sink.endless]

/-- A place without end takes the bytes of the text, and one with little room the first of them. -/
def Sends (w : Writing Unit) (text : String) : Prop :=
  (w.run .endless).2.taken = Text.utf8 text ∧
    ∀ room, (w.run (.ofRoom room)).2.taken = (Text.utf8 text).take room

theorem put_sends (kind : IoFault → Error) (text : String) : Sends (put kind text) text := by
  refine ⟨?_, fun room => ?_⟩
  · rw [run_put_endless]
    rfl
  · rw [run_put_ofRoom]
    simp [Sink.taken, Text.utf8]

/-- What becomes of the bytes does not depend on what a failure means. -/
theorem put_put_sends (kind kind' : IoFault → Error) (a b : String) :
    Sends (do put kind a; put kind' b) (a ++ b) := by
  have same (s : Sink) :
      ((do put kind a; put kind' b).run s).2 = ((put kind (a ++ b)).run s).2 := by
    rw [← put_append, run_bind, run_bind, run_put]
    obtain ⟨_ | e, after⟩ := s.write a.toUTF8
    · simp only [run_put]
      obtain ⟨_ | e, after⟩ := after.write b.toUTF8 <;> rfl
    · rfl
  have one := put_sends kind (a ++ b)
  exact ⟨by rw [same, one.1], fun room => by rw [same, one.2]⟩

/-- The document as a whole counts as JSON, the line feed after it does not. -/
theorem fst_run_document (text : String) (room : Nat) :
    ((do token text; line "").run (.ofRoom room)).1 =
      if text.utf8ByteSize < room then .ok ()
      else .error (if text.utf8ByteSize = room then .io .full else .json (.io .full)) := by
  have feed : ("" ++ "\n").toUTF8.size = 1 := rfl
  rw [run_bind, token, run_put_ofRoom]
  rcases Nat.lt_trichotomy text.utf8ByteSize room with fits | last | short
  · have left : 1 ≤ room - text.utf8ByteSize := Nat.sub_pos_of_lt fits
    simp only [Nat.le_of_lt fits, if_true, fits, line, run_put, Sink.write, feed, left]
  · simp [last, line, run_put, Sink.write]
  · simp [Nat.not_le_of_lt short, Nat.not_lt_of_gt short, Nat.ne_of_gt short]

/-- Where a document breaks off, there is nothing after it to find no room. -/
theorem run_front (text : String) (s : Sink) :
    (do token text; throw (.json .notText) : Writing Unit).run s =
      (match ((token text).run s).1 with
        | .ok _ => .error (.json .notText)
        | .error e => .error e, ((token text).run s).2) := by
  rw [run_bind]
  obtain ⟨_ | _, after⟩ := (token text).run s <;> rfl

theorem front_sends (text : String) :
    Sends (do token text; throw (.json .notText)) text := by
  have one := put_sends (fun e => .json (.io e)) text
  exact ⟨by rw [run_front]; exact one.1, fun room => by rw [run_front]; exact one.2 room⟩

end Writing

/-- What there is to write, with what it shows. -/
inductive Output (P : Type) where
  | report (r : Report P)
  | reportDocument (r : Report P)
  | overview (d : DeclarationReport) (cycles : List (List String))
  | listing (l : Listing P)
  | listingDocument (l : Listing P)
  | mermaid (edges : List Edge) (r : Registry)
  | dot (edges : List Edge) (r : Registry)

namespace Output

variable {P : Type}

def isDocument : Output P → Bool
  | reportDocument _ | listingDocument _ => true
  | _ => false

/-- The paths that an output shows. -/
def files : Output P → List P
  | report r | reportDocument r => r.files
  | listing l | listingDocument l => l.map ListedService.root
  | overview _ _ | mermaid _ _ | dot _ _ => []

variable [FileName P]

def write : Output P → Writing Unit
  | report r => r.write
  | reportDocument r => r.writeDocument
  | overview d cycles => writeOverview d cycles
  | listing l => l.write
  | listingDocument l => l.writeDocument
  | mermaid edges r => Mermaid.write edges r
  | dot edges r => Dot.write edges r

theorem write_form (o : Output P) :
    (o.isDocument = false ∧ ∃ text, o.write = put .io text) ∨
      (o.isDocument = true ∧ o.files.all FileName.isText = true ∧
        ∃ text, o.write = do token text; line "") ∨
      (o.isDocument = true ∧ o.files.all FileName.isText = false ∧
        ∃ text, o.write = do token text; throw (.json .notText)) := by
  cases o with
  | report r => exact .inl ⟨rfl, r.puts_write⟩
  | reportDocument r =>
    rcases r.toJson.writeDocument_form with ⟨spelt, whole⟩ | ⟨unspelt, front⟩
    · exact .inr (.inl ⟨rfl, r.isSpelt_toJson.symm.trans spelt, whole⟩)
    · exact .inr (.inr ⟨rfl, r.isSpelt_toJson.symm.trans unspelt, front⟩)
  | overview d cycles => exact .inl ⟨rfl, puts_overview d cycles⟩
  | listing l => exact .inl ⟨rfl, l.puts_write⟩
  | listingDocument l =>
    rcases (Json.arr (l.map ListedService.toJson)).writeDocument_form with
      ⟨spelt, whole⟩ | ⟨unspelt, front⟩
    · exact .inr (.inl ⟨rfl, by simpa [files, Function.comp_def] using spelt, whole⟩)
    · exact .inr (.inr ⟨rfl, by simpa [files, Function.comp_def] using unspelt, front⟩)
  | mermaid edges r => exact .inl ⟨rfl, _, Mermaid.write_eq edges r⟩
  | dot edges r => exact .inl ⟨rfl, _, Dot.write_eq edges r⟩

/-- The bytes of an output, as a place without end takes them, if all of it can be written. -/
def rendering? (o : Output P) : Option (List UInt8) :=
  match o.write.run .endless with
  | (.ok _, s) => some s.taken
  | (.error _, _) => none

theorem rendering?_text {o : Output P} {text : String} (form : o.write = put .io text) :
    o.rendering? = some (Text.utf8 text) := by
  rw [rendering?, form, run_put_endless]
  rfl

theorem rendering?_document {o : Output P} {text : String}
    (form : o.write = do token text; line "") :
    o.rendering? = some (Text.utf8 (text ++ ("" ++ "\n"))) := by
  have sends : Sends o.write (text ++ ("" ++ "\n")) := form ▸ put_put_sends _ _ _ _
  have ended : (o.write.run .endless).1 = .ok () := by
    simp [form, run_bind, token, line, run_put, Sink.write, Sink.endless]
  rw [← sends.1, rendering?]
  split
  · next run => rw [run]
  · next run => simp [run] at ended

theorem run_endless_front {o : Output P} {text : String}
    (form : o.write = do token text; throw (.json .notText)) :
    o.write.run .endless = (.error (.json .notText), ⟨text.toUTF8, none⟩) := by
  rw [form, run_front, token, run_put_endless]

/-- One service with an accented name, which stands at the bytes 19 and 20 of its document. -/
def accentedListing : Listing := [⟨"é", .go, ⟨"é"⟩, 0, [], [], []⟩]

/-- A service whose root is no text. -/
def brokenListing : Listing SystemPath := [⟨"a", .go, ⟨[0x61, 0xFF]⟩, 0, [], [], []⟩]

end Output
end ServiceMap
