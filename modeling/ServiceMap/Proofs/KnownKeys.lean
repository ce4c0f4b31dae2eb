import Mathlib
import ServiceMap.Config.Schema
import ServiceMap.Proofs.Registry

/-! Which documents are configurations. Every table but one may hold only the keys of its form; the
table of a dependency is asked for its service and its requirement, and its other keys are passed
over. So is all that an array holds after the last field of the table it is given for. -/

namespace ServiceMap

/-- Something comes out of it. -/
def Works {ε α : Type} (x : Except ε α) : Prop := ∃ a, x = .ok a

section Works

variable {ε α β : Type}

@[simp] theorem works_ok (a : α) : Works (.ok a : Except ε α) := ⟨a, rfl⟩

@[simp] theorem not_works_error (e : ε) : ¬Works (.error e : Except ε α) := nofun

@[simp] theorem works_pure (a : α) : Works (pure a : Except ε α) := ⟨a, rfl⟩

theorem works_bind {x : Except ε α} {f : α → Except ε β} :
    Works (x >>= f) ↔ ∃ a, x = .ok a ∧ Works (f a) := by
  simp only [Works, bind_eq_ok]
  rw [exists_comm]
  simp only [exists_and_left]

@[simp] theorem works_map {x : Except ε α} {g : α → β} : Works (g <$> x) ↔ Works x := by
  cases x with
  | error e => exact iff_of_false nofun nofun
  | ok a => exact iff_of_true ⟨g a, rfl⟩ ⟨a, rfl⟩

theorem works_mapM {f : α → Except ε β} {l : List α} : Works (l.mapM f) ↔ ∀ a ∈ l, Works (f a) := by
  induction l with
  | nil => simp
  | cons a l ih =>
    rw [List.mapM_cons, works_bind, List.forall_mem_cons, ← ih]
    simp only [bind_pure_comp, works_map, exists_and_right]
    rfl

/-- A fold in which what a member does to the state never decides whether it is taken. -/
theorem works_foldlM {f : β → α → Except ε β} {p : α → Prop} (h : ∀ b a, Works (f b a) ↔ p a)
    (b : β) (l : List α) : Works (l.foldlM f b) ↔ ∀ a ∈ l, p a := by
  induction l generalizing b with
  | nil => simp
  | cons a l ih =>
    rw [List.foldlM_cons, works_bind, List.forall_mem_cons, ← h b a]
    simp only [ih, exists_and_right]
    rfl

end Works

namespace Config

def IsText (v : Toml.Value) : Prop := ∃ s, v = .string s

def IsFlag (v : Toml.Value) : Prop := ∃ b, v = .boolean b

def IsList (item : Toml.Value → Prop) (v : Toml.Value) : Prop :=
  ∃ items, v = .array items ∧ ∀ i ∈ items, item i

@[simp] theorem works_text {v : Toml.Value} : Works (text v) ↔ IsText v := by
  cases v <;> simp [text, IsText]

@[simp] theorem works_flag {v : Toml.Value} : Works (flag v) ↔ IsFlag v := by
  cases v <;> simp [flag, IsFlag]

theorem works_list {α : Type} {item : Toml.Value → Decoded α} {p : Toml.Value → Prop}
    (h : ∀ v, Works (item v) ↔ p v) {v : Toml.Value} : Works (list item v) ↔ IsList p v := by
  cases v with
  | array items => simp [list, IsList, works_mapM, h]
  | _ => simp [list, IsList]

/-- What may stand in the place of a table with fixed fields. -/
structure Form where
  fields : List (String × (Toml.Value → Prop))
  /-- The fields that an array need not go on to. -/
  optional : List String

/-- A table holds none but the fields. An array holds them in order, and what comes after the last
one may be anything. -/
def Form.Fits (form : Form) : Toml.Value → Prop
  | .table entries => ∀ e ∈ entries, ∃ x ∈ form.fields, x.1 = e.1 ∧ x.2 e.2
  | .array items => (∀ x ∈ form.fields.zip items, x.1.2 x.2) ∧
      ∀ x ∈ form.fields.drop items.length, x.1 ∈ form.optional
  | _ => False

/-- The form says which values each field takes, whatever has been read before. -/
structure Shape.Has {α : Type} (shape : Shape α) (form : Form) : Prop where
  fields : shape.fields = form.fields.map Prod.fst
  optional : shape.optional = form.optional
  nodup : shape.fields.Nodup
  undated : "$__toml_private_datetime" ∉ shape.fields
  set : ∀ x ∈ form.fields, ∀ a v, Works (shape.set a x.1 v) ↔ x.2 v

namespace Shape

variable {α : Type} {shape : Shape α} {form : Form}

theorem works_setKnown (h : shape.Has form) (a : α) (e : String × Toml.Value) :
    Works (shape.setKnown a e) ↔ ∃ x ∈ form.fields, x.1 = e.1 ∧ x.2 e.2 := by
  unfold setKnown
  by_cases known : e.1 ∈ shape.fields
  · rw [if_pos (by simpa using known)]
    have names := known
    rw [h.fields, List.mem_map] at names
    obtain ⟨x, hx, name⟩ := names
    rw [← name, h.set x hx]
    refine ⟨fun takes => ⟨x, hx, rfl, takes⟩, fun ⟨y, hy, same, takes⟩ => ?_⟩
    have nodup := h.nodup
    rw [h.fields] at nodup
    rwa [← List.inj_on_of_nodup_map nodup hy hx same]
  · rw [if_neg (by simpa using known)]
    simp only [not_works_error, false_iff, not_exists, not_and]
    rintro x hx name -
    exact known (by rw [h.fields, ← name]; exact List.mem_map_of_mem hx)

theorem works_setInOrder (h : shape.Has form) {fields : List (String × (Toml.Value → Prop))}
    (part : fields ⊆ form.fields) (items : List Toml.Value) (a : α) :
    Works (shape.setInOrder (fields.map Prod.fst) items a) ↔
      (∀ x ∈ fields.zip items, x.1.2 x.2) ∧ ∀ x ∈ fields.drop items.length, x.1 ∈ form.optional := by
  induction fields generalizing items a with
  | nil => simp [setInOrder]
  | cons x fields ih =>
    obtain ⟨hx, part⟩ := List.cons_subset.1 part
    cases items with
    | nil =>
      have rest := ih part [] a
      simp only [List.map_cons, setInOrder, List.contains_eq_mem, h.optional, decide_eq_true_eq]
      split
      · next may => simp [rest, may]
      · next must => simp [must]
    | cons v items =>
      rw [List.map_cons, setInOrder]
      show Works (shape.set a x.1 v >>= _) ↔ _
      rw [works_bind]
      simp only [ih part, exists_and_right]
      rw [show (∃ b, shape.set a x.1 v = .ok b) ↔ x.2 v from h.set x hx a v]
      simp [and_assoc]

theorem works_decode (h : shape.Has form) {v : Toml.Value} : Works (shape.decode v) ↔ form.Fits v := by
  cases v with
  | table entries => exact works_foldlM (works_setKnown h) _ _
  | array items =>
    have order := works_setInOrder h (List.Subset.refl _) items shape.start
    rw [← h.fields] at order
    exact order
  | datetime text =>
    have undated := h.undated
    simp [decode, entries?, setKnown, undated, Form.Fits]
  | _ => simp [decode, entries?, Form.Fits]

end Shape

/-! ## The forms of the schema -/

namespace Analysis

def form : Form where
  fields := [("boundaries", IsFlag), ("circular", IsFlag), ("polyglot", IsFlag),
    ("cross_service", IsFlag)]
  optional := []

theorem shape_has : shape.Has form where
  fields := rfl
  optional := rfl
  nodup := by decide
  undated := by decide
  set := by simp [form, shape, set]

end Analysis

namespace ScanOptions

def form : Form where
  fields := [("exclude", IsList IsText), ("include_tests", IsFlag)]
  optional := ["exclude"]

theorem shape_has : shape.Has form where
  fields := rfl
  optional := rfl
  nodup := by decide
  undated := by decide
  set := by simp [form, shape, set, works_list fun _ => works_text]

end ScanOptions

theorem exists_ofName?_iff {s : String} :
    (∃ q, Requirement.ofName? s = some q) ↔ ∃ q : Requirement, s = q.name := by
  constructor
  · rintro ⟨q, found⟩
    have name : q.name = s := by simpa using List.find?_some found
    exact ⟨q, name.symm⟩
  · rintro ⟨q, rfl⟩
    cases q
    · exact ⟨.required, rfl⟩
    · exact ⟨.optional, rfl⟩

namespace Declaration

/-- The keys of a dependency that are looked at. -/
def keys : List String := ["service", "requirement"]

/-- A name alone, or a table with a service and perhaps a requirement. What else the table holds is
not asked. -/
def Fits (v : Toml.Value) : Prop :=
  IsText v ∨ ∃ entries, v = .table entries ∧ (∃ s, entries.lookup "service" = some (.string s)) ∧
    ∀ r, entries.lookup "requirement" = some r → ∃ q : Requirement, r = .string q.name

theorem ofEntries?_isSome_iff {entries : Toml.Entries} :
    (∃ d, ofEntries? entries = some d) ↔ (∃ s, entries.lookup "service" = some (.string s)) ∧
      ∀ r, entries.lookup "requirement" = some r → ∃ q : Requirement, r = .string q.name := by
  unfold ofEntries?
  cases entries.lookup "service" with
  | none => simp
  | some s =>
    cases s with
    | string s =>
      cases entries.lookup "requirement" with
      | none => simp
      | some r =>
        cases r with
        | string r => simpa [Option.map_eq_some_iff] using exists_ofName?_iff
        | _ => simp
    | _ => simp

theorem works_decode {v : Toml.Value} : Works (decode v) ↔ Fits v := by
  cases v with
  | table entries =>
    have works : Works (decode (.table entries)) ↔ ∃ d, ofEntries? entries = some d := by
      simp only [decode, entries?, Option.bind_some]
      cases ofEntries? entries <;> simp
    rw [works, ofEntries?_isSome_iff]
    simp [Fits, IsText]
  | datetime text => simp [decode, entries?, ofEntries?, Fits, IsText, List.lookup]
  | _ => simp [decode, entries?, Fits, IsText]

theorem lookup_filter {k : String} (hk : k ∈ keys) (entries : Toml.Entries) :
    (entries.filter fun e => keys.contains e.1).lookup k = entries.lookup k := by
  induction entries with
  | nil => rfl
  | cons e entries ih =>
    by_cases known : keys.contains e.1 = true
    · rw [List.filter_cons, if_pos known, List.lookup_cons, List.lookup_cons, ih]
    · have other : (k == e.1) = false := by
        rw [beq_eq_false_iff_ne]
        rintro rfl
        exact known (by simpa using hk)
      rw [List.filter_cons, if_neg known, ih, List.lookup_cons, other]

/-- Other keys change nothing. -/
theorem decode_filter (entries : Toml.Entries) :
    decode (.table (entries.filter fun e => keys.contains e.1)) = decode (.table entries) := by
  have service := lookup_filter (k := "service") (by simp [keys]) entries
  have requirement := lookup_filter (k := "requirement") (by simp [keys]) entries
  simp only [decode, entries?, Option.bind_some, ofEntries?, service, requirement]

end Declaration

namespace PartialEntry

def form : Form where
  fields := [("name", IsText), ("language", IsText), ("root", IsText), ("include", IsList IsText),
    ("exclude", IsList IsText), ("provides", IsList IsText), ("consumes", IsList IsText),
    ("depends_on", IsList Declaration.Fits)]
  optional := ["include", "exclude", "provides", "consumes", "depends_on"]

theorem shape_has : shape.Has form where
  fields := rfl
  optional := rfl
  nodup := by decide
  undated := by decide
  set := by
    simp [form, shape, set, works_list fun _ => works_text, works_list fun _ => Declaration.works_decode]

/-- The fields that an entry cannot do without. -/
def required : List String := ["name", "language", "root"]

/-- Whether a required field has been read. -/
def given (e : PartialEntry) (field : String) : Bool :=
  match field with
  | "name" => e.name.isSome
  | "language" => e.language.isSome
  | _ => e.root.isSome

variable {e e' : PartialEntry} {g : String}

theorem works_finish : Works e.finish ↔ ∀ g ∈ required, e.given g = true := by
  have there : ∀ field (x : Option String) s, require field x = .ok s ↔ x = some s := by
    intro field x s
    cases x <;> simp [require]
  have works : ∀ field x, Works (require field x) ↔ ∃ s, x = some s := fun field x =>
    exists_congr (there field x)
  simp [finish, works_bind, there, works, required, given, Option.isSome_iff_exists]

theorem set_given {f : String} {v : Toml.Value} (h : e.set f v = .ok e') (hg : g ∈ required) :
    e'.given g = true ↔ e.given g = true ∨ f = g := by
  unfold set at h
  split at h
  all_goals
    obtain ⟨x, -, h⟩ := bind_eq_ok.1 h
    cases h
    simp only [required, List.mem_cons, List.not_mem_nil, or_false] at hg
    rcases hg with rfl | rfl | rfl <;> simp_all [given]

theorem setKnown_given {x : String × Toml.Value} (h : shape.setKnown e x = .ok e') (hg : g ∈ required) :
    e'.given g = true ↔ e.given g = true ∨ x.1 = g := by
  unfold Shape.setKnown at h
  split at h
  · exact set_given h hg
  · cases h

/-- A table gives the required fields that are among its keys. -/
theorem foldlM_given {entries : Toml.Entries} (h : entries.foldlM shape.setKnown e = .ok e')
    (hg : g ∈ required) : e'.given g = true ↔ e.given g = true ∨ ∃ x ∈ entries, x.1 = g := by
  induction entries generalizing e with
  | nil =>
    cases h
    simp
  | cons x entries ih =>
    rw [List.foldlM_cons] at h
    obtain ⟨mid, first, rest⟩ := bind_eq_ok.1 h
    rw [ih rest, setKnown_given first hg, List.exists_mem_cons_iff, or_assoc]

/-- An array that goes on far enough gives all of them. -/
theorem setInOrder_given {fields : List String} {items : List Toml.Value}
    (h : shape.setInOrder fields items e = .ok e') (hg : g ∈ required)
    (there : e.given g = true ∨ g ∈ fields) : e'.given g = true := by
  induction fields generalizing items e with
  | nil =>
    cases h
    simpa using there
  | cons f fields ih =>
    cases items with
    | nil =>
      rw [Shape.setInOrder] at h
      split at h
      · next may =>
        refine ih h (there.imp_right fun mem => (List.mem_cons.1 mem).resolve_left ?_)
        rintro rfl
        simp only [required, List.mem_cons, List.not_mem_nil, or_false] at hg
        rcases hg with rfl | rfl | rfl <;> simp [shape] at may
      · cases h
    | cons v items =>
      rw [Shape.setInOrder] at h
      obtain ⟨mid, first, rest⟩ := bind_eq_ok.1 h
      refine ih rest ?_
      rw [set_given first hg, or_assoc]
      exact there.imp_right fun mem => (List.mem_cons.1 mem).imp_left Eq.symm

end PartialEntry

namespace ServiceEntry

/-- A service has the required fields. An array that fits has them. -/
def Fits (v : Toml.Value) : Prop :=
  PartialEntry.form.Fits v ∧
    ∀ entries, v = .table entries → ∀ g ∈ PartialEntry.required, ∃ x ∈ entries, x.1 = g

theorem works_decode {v : Toml.Value} : Works (decode v) ↔ Fits v := by
  have fits := Shape.works_decode PartialEntry.shape_has (v := v)
  unfold decode Fits
  rw [works_bind, ← fits]
  simp only [PartialEntry.works_finish]
  constructor
  · rintro ⟨e, decoded, given⟩
    refine ⟨⟨e, decoded⟩, ?_⟩
    rintro entries rfl g hg
    have start : PartialEntry.shape.start.given g = false := by
      simp only [PartialEntry.required, List.mem_cons, List.not_mem_nil, or_false] at hg
      rcases hg with rfl | rfl | rfl <;> rfl
    simpa [start] using (PartialEntry.foldlM_given decoded hg).1 (given g hg)
  · rintro ⟨⟨e, decoded⟩, keys⟩
    refine ⟨e, decoded, fun g hg => ?_⟩
    cases v with
    | table entries => exact (PartialEntry.foldlM_given decoded hg).2 (.inr (keys entries rfl g hg))
    | array items =>
      have named : PartialEntry.required ⊆ PartialEntry.shape.fields := by decide
      exact PartialEntry.setInOrder_given decoded hg (.inr (named hg))
    | _ => exact (fits.1 ⟨e, decoded⟩).elim

end ServiceEntry

namespace File

def form : Form where
  fields := [("analysis", Analysis.form.Fits), ("scan", ScanOptions.form.Fits),
    ("services", IsList ServiceEntry.Fits)]
  optional := ["analysis", "scan", "services"]

theorem shape_has : shape.Has form where
  fields := rfl
  optional := rfl
  nodup := by decide
  undated := by decide
  set := by
    simp [form, shape, set, Shape.works_decode Analysis.shape_has,
      Shape.works_decode ScanOptions.shape_has, works_list fun _ => ServiceEntry.works_decode]

/-- A text is a configuration when it is TOML and fits the schema: no table that is read holds a key
that the schema does not have in its place, save that of a dependency, where such a key is as good as
not there. Where an array is given for a table, it is read as far as the fields go; what comes after the
last of them is not read, and tables in it may hold any keys. -/
theorem ofText_fits (source : String) :
    ((∃ file, ofText source = .ok file) ↔
      ∃ entries, Toml.parse? source = some entries ∧ form.Fits (.table entries)) ∧
      ∀ entries, Declaration.decode (.table (entries.filter fun e => Declaration.keys.contains e.1)) =
        Declaration.decode (.table entries) := by
  refine ⟨?_, Declaration.decode_filter⟩
  unfold ofText
  cases Toml.parse? source with
  | none => simp
  | some entries =>
    simp only [Option.some.injEq, exists_eq_left', ← Shape.works_decode shape_has]
    cases shape.decode (.table entries) <;> simp [Except.mapError]

/-- A service with a dependency that was meant to be optional. -/
def misspelt : String :=
  "[[services]]\nname='a'\nlanguage='go'\nroot='a'\ndepends_on=[\x7bservice='a',requirment='optional'\x7d]"

def misspeltEntries : Toml.Entries :=
  [("services", .array [.table [("name", .string "a"), ("language", .string "go"), ("root", .string "a"),
    ("depends_on", .array [.table [("service", .string "a"), ("requirment", .string "optional")]])]])]

theorem misspelt_parsed : Toml.parse? misspelt = some misspeltEntries := by cbv

/-- The misspelt key is no key of a dependency, and the text is taken all the same: the dependency is
required. -/
theorem misspelt_accepted :
    Toml.parse? misspelt = some misspeltEntries ∧ "requirment" ∉ Declaration.keys ∧
      ofText misspelt =
        .ok { services := [⟨"a", "go", "a", [], [], [], [], [.detailed "a" .required]⟩] } := by
  refine ⟨misspelt_parsed, by decide, ?_⟩
  rw [ofText, misspelt_parsed]
  cbv

end File

end Config
end ServiceMap
