import Mathlib
import ServiceMap.Proofs.KnownKeys
import ServiceMap.Proofs.Registry
import ServiceMap.Proofs.RootSpelling
import ServiceMap.Proofs.Resolution

/-! Which settings make a registry. The entries are looked at one after the other, each for a name
that is new, a known language and globs; then the dependencies, which may lead to any entry. The first
fault on that way is the error. -/

namespace ServiceMap

/-- A place in a list is its head or a place behind it. -/
theorem exists_split_cons {α : Type} {a : α} {l : List α} {P : List α → α → List α → Prop} :
    (∃ before b after, a :: l = before ++ b :: after ∧ P before b after) ↔
      P [] a l ∨ ∃ before b after, l = before ++ b :: after ∧ P (a :: before) b after := by
  constructor
  · rintro ⟨before, b, after, split, h⟩
    cases before with
    | nil =>
      obtain ⟨rfl, rfl⟩ := List.cons.inj split
      exact .inl h
    | cons c before =>
      obtain ⟨rfl, rfl⟩ := List.cons.inj split
      exact .inr ⟨before, b, after, rfl, h⟩
  · rintro (h | ⟨before, b, after, rfl, h⟩)
    · exact ⟨[], a, l, rfl, h⟩
    · exact ⟨a :: before, b, after, rfl, h⟩

section Failing

variable {ε α β γ : Type} {e : ε}

theorem bind_eq_error {x : Except ε α} {f : α → Except ε β} :
    x >>= f = .error e ↔ x = .error e ∨ ∃ a, x = .ok a ∧ f a = .error e := by
  cases x with
  | error e => simp [bind, Except.bind]
  | ok a => simp [bind, Except.bind]

/-- Of two things that are done one after the other the second can fail only when the first works. -/
theorem both_eq_error {x : Except ε α} {y : Except ε β} {f : α → β → γ} :
    (x >>= fun a => y >>= fun b => .ok (f a b)) = .error e ↔
      x = .error e ∨ Works x ∧ y = .error e := by
  have second : ∀ a, (y >>= fun b => (.ok (f a b) : Except ε γ)) = .error e ↔ y = .error e := by
    intro a
    rw [bind_eq_error]
    simp
  simp only [bind_eq_error (f := fun a => y >>= fun b => .ok (f a b)), second, exists_and_right, Works]

/-- What fails for one member of a list fails for the first such. -/
theorem mapM_eq_error_iff {f : α → Except ε β} {l : List α} : l.mapM f = .error e ↔
    ∃ before a after, l = before ++ a :: after ∧ (∀ b ∈ before, Works (f b)) ∧ f a = .error e := by
  induction l with
  | nil => simp [pure, Except.pure]
  | cons a l ih =>
    have first : (a :: l).mapM f = .error e ↔ f a = .error e ∨ Works (f a) ∧ l.mapM f = .error e := by
      rw [List.mapM_cons]
      exact both_eq_error
    rw [first, ih, exists_split_cons]
    refine or_congr (by simp) ?_
    simp only [List.forall_mem_cons]
    tauto

end Failing

section Repetitions

variable {α : Type} [DecidableEq α]

/-- A list without its later repetitions: the members that are not there before. -/
def unrepeated (l : List α) : List α := (l.zipIdx.filter fun p => p.1 ∉ l.take p.2).map Prod.fst

theorem distinct_eq (l : List α) : distinct l = unrepeated l := by
  -- from the end, where a member is kept or not by what is before it
  induction l using List.reverseRecOn with
  | nil => rfl
  | append_singleton l a ih =>
    have earlier : (l.zipIdx.filter fun p => p.1 ∉ (l ++ [a]).take p.2).map Prod.fst =
        unrepeated l := by
      refine congrArg (List.map Prod.fst) (List.filter_congr fun p hp => ?_)
      rw [List.take_append_of_le_length (List.mem_zipIdx' hp).1.le]
    rw [distinct, List.eraseDups_append, ← distinct, ih]
    conv_rhs => rw [unrepeated, List.zipIdx_append, List.filter_append, List.map_append, earlier]
    by_cases again : a ∈ l
    · simp [List.removeAll, again]
    · simp [List.removeAll, again, List.eraseDups_cons]

end Repetitions

/-- A pattern that can be read as a glob. -/
def IsGlob (pattern : String) : Prop := ∃ tokens, Glob.read Globs.dialect pattern = .ok tokens

/-- The first of the patterns that is no glob, and what is wrong with it. -/
def FirstBad (patterns : List String) (pattern : String) (fault : Glob.Fault) : Prop :=
  ∃ before after, patterns = before ++ pattern :: after ∧ (∀ p ∈ before, IsGlob p) ∧
    Glob.read Globs.dialect pattern = .error fault

section Globs

variable {pattern : String} {patterns : List String} {fault : Glob.Fault} {err : Error}

/-- The tokens of a pattern, or what is wrong with which pattern. -/
def globOf (pattern : String) : Except (String × Glob.Fault) (List Glob.Token) :=
  (Glob.read Globs.dialect pattern).mapError fun fault => (pattern, fault)

theorem works_globOf : Works (globOf pattern) ↔ IsGlob pattern := by
  unfold globOf IsGlob
  cases Glob.read Globs.dialect pattern <;> simp [Except.mapError]

theorem globOf_eq_error_iff {named : String} : globOf pattern = .error (named, fault) ↔
    named = pattern ∧ Glob.read Globs.dialect pattern = .error fault := by
  unfold globOf
  cases Glob.read Globs.dialect pattern <;> simp [Except.mapError, eq_comm]

/-- Whether there are patterns or none, reading them ends as reading one after the other does. -/
theorem globs_eq (patterns : List String) : ∃ f : List (List Glob.Token) → Option Globs,
    Service.globs patterns =
      ((patterns.mapM globOf).map f).mapError fun (pattern, fault) => .glob pattern fault := by
  cases patterns with
  | nil => exact ⟨fun _ => none, rfl⟩
  | cons p patterns =>
    refine ⟨some ∘ Globs.mk, ?_⟩
    rw [Service.globs, Globs.ofPatterns?, if_neg (by simp), Globs.ofPatterns]
    change (((List.mapM globOf (p :: patterns)).map Globs.mk).map some).mapError _ = _
    cases (p :: patterns).mapM globOf <;> rfl

theorem works_globs : Works (Service.globs patterns) ↔ ∀ p ∈ patterns, IsGlob p := by
  have each : Works (patterns.mapM globOf) ↔ ∀ p ∈ patterns, IsGlob p := by
    rw [works_mapM]
    exact forall₂_congr fun p _ => works_globOf
  obtain ⟨f, eq⟩ := globs_eq patterns
  rw [eq, ← each]
  cases patterns.mapM globOf <;> simp [Except.mapError, Except.map]

theorem globs_eq_error_iff : Service.globs patterns = .error err ↔
    ∃ pattern fault, FirstBad patterns pattern fault ∧ err = .glob pattern fault := by
  have first : ∀ pattern fault, patterns.mapM globOf = .error (pattern, fault) ↔
      FirstBad patterns pattern fault := by
    intro pattern fault
    rw [mapM_eq_error_iff]
    constructor
    · rintro ⟨before, p, after, rfl, fine, failed⟩
      obtain ⟨rfl, failed⟩ := globOf_eq_error_iff.1 failed
      exact ⟨before, after, rfl, fun p hp => works_globOf.1 (fine p hp), failed⟩
    · rintro ⟨before, after, rfl, fine, failed⟩
      exact ⟨before, pattern, after, rfl, fun p hp => works_globOf.2 (fine p hp),
        globOf_eq_error_iff.2 ⟨rfl, failed⟩⟩
  obtain ⟨f, eq⟩ := globs_eq patterns
  simp only [eq, ← first]
  cases patterns.mapM globOf <;> simp [Except.mapError, Except.map, Prod.ext_iff, eq_comm]

end Globs

/-! ## Entries -/

/-- What is wrong with an entry that comes after others of the names `taken`. The earlier kinds of
faults go before the later ones. -/
inductive EntryFault (settings : Settings) (taken : List String) (e : Config.ServiceEntry) :
    Error → Prop
  | name : e.name ∈ taken → EntryFault settings taken e (.duplicateService e.name)
  | language : e.name ∉ taken → Language.ofName? e.language = none →
      EntryFault settings taken e (.unknownLanguage e.name e.language)
  | includes {l pattern fault} : e.name ∉ taken → Language.ofName? e.language = some l →
      FirstBad e.includeGlobs pattern fault → EntryFault settings taken e (.glob pattern fault)
  | excludes {l pattern fault} : e.name ∉ taken → Language.ofName? e.language = some l →
      (∀ p ∈ e.includeGlobs, IsGlob p) → FirstBad (e.excludeGlobs ++ settings.exclude) pattern fault →
        EntryFault settings taken e (.glob pattern fault)

/-- An entry without a fault of its own. -/
structure Fits (settings : Settings) (e : Config.ServiceEntry) : Prop where
  language : ∃ l, Language.ofName? e.language = some l
  includes : ∀ p ∈ e.includeGlobs, IsGlob p
  excludes : ∀ p ∈ e.excludeGlobs ++ settings.exclude, IsGlob p

/-- Entries of which none has a fault, beside those before it. -/
structure Sound (settings : Settings) (entries : List Config.ServiceEntry) : Prop where
  names_nodup : (entries.map Config.ServiceEntry.name).Nodup
  fits : ∀ e ∈ entries, Fits settings e

/-- The service of an entry. -/
structure Registers (settings : Settings) (e : Config.ServiceEntry) (s : Service) : Prop where
  name : s.name = e.name
  language : Language.ofName? e.language = some s.language
  root : s.root = settings.projectRoot.join ⟨e.root⟩
  relativeRoot : s.relativeRoot = ⟨e.root⟩
  includes : Service.globs e.includeGlobs = .ok s.selector.includeGlobs
  excludes : Service.globs (e.excludeGlobs ++ settings.exclude) = .ok s.selector.excludeGlobs
  includeTests : s.selector.includeTests = settings.includeTests
  provides : s.provides = unrepeated e.provides
  consumes : s.consumes = unrepeated e.consumes
  dependencies : s.dependencies = e.dependsOn.map fun d => ⟨d.service, d.requirement⟩

section Entries

variable {settings : Settings} {taken : List String} {e : Config.ServiceEntry}
  {entries : List Config.ServiceEntry} {err : Error}

theorem Service.ofEntry_of_unknown (unknown : Language.ofName? e.language = none) :
    ofEntry settings e = .error (.unknownLanguage e.name e.language) := by
  rw [ofEntry, unknown]
  rfl

theorem Service.ofEntry_of_known (settings : Settings) {l : Language} (known : Language.ofName? e.language = some l) :
    ∃ make : Option Globs → Option Globs → Service,
      (ofEntry settings e = globs e.includeGlobs >>= fun includes =>
        globs (e.excludeGlobs ++ settings.exclude) >>= fun excludes => .ok (make includes excludes)) ∧
      ∀ includes excludes, globs e.includeGlobs = .ok includes →
        globs (e.excludeGlobs ++ settings.exclude) = .ok excludes →
          Registers settings e (make includes excludes) := by
  refine ⟨fun includes excludes => ⟨e.name, l, settings.projectRoot.join ⟨e.root⟩, ⟨e.root⟩,
    ⟨includes, excludes, settings.includeTests⟩, distinct e.provides, distinct e.consumes,
    e.dependsOn.map fun d => ⟨d.service, d.requirement⟩⟩, ?_, fun includes excludes hi hx => ?_⟩
  · rw [ofEntry, known]
    rfl
  · exact ⟨rfl, known, rfl, rfl, hi, hx, rfl, distinct_eq _, distinct_eq _, rfl⟩

theorem Service.registers_of_ofEntry {s : Service} (h : ofEntry settings e = .ok s) :
    Registers settings e s := by
  cases known : Language.ofName? e.language with
  | none =>
    rw [ofEntry_of_unknown known] at h
    cases h
  | some l =>
    obtain ⟨make, eq, registers⟩ := ofEntry_of_known settings known
    obtain ⟨includes, hi, h⟩ := bind_eq_ok.1 (eq.symm.trans h)
    obtain ⟨excludes, hx, h⟩ := bind_eq_ok.1 h
    cases h
    exact registers includes excludes hi hx

theorem Service.works_ofEntry : Works (ofEntry settings e) ↔ Fits settings e := by
  constructor
  · rintro ⟨s, made⟩
    have registers := registers_of_ofEntry made
    exact ⟨⟨_, registers.language⟩, works_globs.1 ⟨_, registers.includes⟩,
      works_globs.1 ⟨_, registers.excludes⟩⟩
  · rintro ⟨⟨l, known⟩, includes, excludes⟩
    obtain ⟨i, hi⟩ := works_globs.2 includes
    obtain ⟨x, hx⟩ := works_globs.2 excludes
    obtain ⟨make, eq, -⟩ := ofEntry_of_known settings known
    exact ⟨make i x, eq.trans (bind_eq_ok.2 ⟨i, hi, bind_eq_ok.2 ⟨x, hx, rfl⟩⟩)⟩

theorem Service.ofEntry_eq_error_iff (new : e.name ∉ taken) :
    ofEntry settings e = .error err ↔ EntryFault settings taken e err := by
  cases known : Language.ofName? e.language with
  | none =>
    rw [ofEntry_of_unknown known]
    constructor
    · rintro ⟨⟩
      exact .language new known
    · rintro (again | _ | ⟨-, other⟩ | ⟨-, other⟩)
      · exact absurd again new
      · rfl
      · simp [known] at other
      · simp [known] at other
  | some l =>
    obtain ⟨make, eq, -⟩ := ofEntry_of_known settings known
    rw [eq, both_eq_error, works_globs, globs_eq_error_iff, globs_eq_error_iff]
    constructor
    · rintro (⟨pattern, fault, bad, rfl⟩ | ⟨fine, pattern, fault, bad, rfl⟩)
      · exact .includes new known bad
      · exact .excludes new known fine bad
    · rintro (again | ⟨-, unknown⟩ | ⟨-, -, bad⟩ | ⟨-, -, fine, bad⟩)
      · exact absurd again new
      · simp [known] at unknown
      · exact .inl ⟨_, _, bad, rfl⟩
      · exact .inr ⟨fine, _, _, bad, rfl⟩

theorem EntryFault.congr {taken' : List String} (same : ∀ a, a ∈ taken ↔ a ∈ taken')
    (h : EntryFault settings taken e err) : EntryFault settings taken' e err := by
  cases h with
  | name again => exact .name ((same _).1 again)
  | language new unknown => exact .language (mt (same _).2 new) unknown
  | includes new known bad => exact .includes (mt (same _).2 new) known bad
  | excludes new known fine bad => exact .excludes (mt (same _).2 new) known fine bad

theorem sound_nil : Sound settings [] := ⟨by simp, by simp⟩

theorem sound_cons : Sound settings (e :: entries) ↔
    Fits settings e ∧ Sound settings entries ∧ ∀ f ∈ entries, f.name ≠ e.name := by
  have new : e.name ∉ entries.map Config.ServiceEntry.name ↔ ∀ f ∈ entries, f.name ≠ e.name := by simp
  constructor
  · rintro ⟨names, fits⟩
    obtain ⟨first, names⟩ := List.nodup_cons.1 names
    obtain ⟨fit, fits⟩ := List.forall_mem_cons.1 fits
    exact ⟨fit, ⟨names, fits⟩, new.1 first⟩
  · rintro ⟨fit, ⟨names, fits⟩, first⟩
    exact ⟨List.nodup_cons.2 ⟨new.2 first, names⟩, List.forall_mem_cons.2 ⟨fit, fits⟩⟩

namespace Registry

theorem register_of_mem (again : e.name ∈ taken) :
    register settings taken (e :: entries) = .error (.duplicateService e.name) := by
  rw [register, if_pos (by simpa using again)]
  rfl

theorem register_of_new (new : e.name ∉ taken) : register settings taken (e :: entries) =
    (Service.ofEntry settings e >>= fun s =>
      register settings (e.name :: taken) entries >>= fun services => .ok (s :: services)) := by
  rw [register, if_neg (by simpa using new)]
  rfl

/-- The names that are taken when an entry has been registered. -/
theorem forall_not_mem_cons : (∀ f ∈ entries, f.name ∉ e.name :: taken) ↔
    (∀ f ∈ entries, f.name ≠ e.name) ∧ ∀ f ∈ entries, f.name ∉ taken := by
  simp only [List.mem_cons, not_or, forall_and]

theorem works_register : Works (register settings taken entries) ↔
    Sound settings entries ∧ ∀ f ∈ entries, f.name ∉ taken := by
  induction entries generalizing taken with
  | nil => simp [register, sound_nil]
  | cons e entries ih =>
    by_cases again : e.name ∈ taken
    · rw [register_of_mem again]
      simp [again]
    · have works : Works (register settings taken (e :: entries)) ↔
          Works (Service.ofEntry settings e) ∧ Works (register settings (e.name :: taken) entries) := by
        rw [register_of_new again, works_bind]
        simp only [works_bind, works_ok, and_true, exists_and_right]
        rfl
      rw [works, Service.works_ofEntry, ih, sound_cons, forall_not_mem_cons, List.forall_mem_cons]
      tauto

/-- Registering ends at the first entry that has a fault beside those before it. -/
theorem register_eq_error_iff : register settings taken entries = .error err ↔
    ∃ before e after, entries = before ++ e :: after ∧ Sound settings before ∧
      (∀ f ∈ before, f.name ∉ taken) ∧
        EntryFault settings (taken ++ before.map Config.ServiceEntry.name) e err := by
  -- the name of an entry that has been registered is taken for those behind it
  induction entries generalizing taken with
  | nil => simp [register]
  | cons e entries ih =>
    rw [exists_split_cons, List.map_nil, List.append_nil]
    by_cases again : e.name ∈ taken
    · have fault : EntryFault settings taken e err ↔ err = .duplicateService e.name := by
        constructor
        · rintro (_ | new | new | new)
          · rfl
          all_goals exact absurd again new
        · rintro rfl
          exact .name again
      rw [register_of_mem again, fault]
      simp [again, sound_nil, eq_comm]
    · rw [register_of_new again, both_eq_error, Service.works_ofEntry, ih,
        Service.ofEntry_eq_error_iff again]
      refine or_congr (by simp [sound_nil]) ?_
      constructor
      · rintro ⟨fit, before, f, after, rfl, sound, apart, fault⟩
        obtain ⟨new, apart⟩ := forall_not_mem_cons.1 apart
        exact ⟨before, f, after, rfl, sound_cons.2 ⟨fit, sound, new⟩,
          List.forall_mem_cons.2 ⟨again, apart⟩, fault.congr (by simp [or_left_comm])⟩
      · rintro ⟨before, f, after, rfl, sound, apart, fault⟩
        obtain ⟨fit, sound, new⟩ := sound_cons.1 sound
        exact ⟨fit, before, f, after, rfl, sound,
          forall_not_mem_cons.2 ⟨new, (List.forall_mem_cons.1 apart).2⟩,
          fault.congr (by simp [or_left_comm])⟩

theorem registers_of_register {services : List Service}
    (h : register settings taken entries = .ok services) :
    List.Forall₂ (Registers settings) entries services := by
  induction entries generalizing taken services with
  | nil =>
    cases h
    exact .nil
  | cons e entries ih =>
    obtain ⟨-, s, rest, made, later, rfl⟩ := register_cons h
    exact .cons (Service.registers_of_ofEntry made) (ih later)

end Registry

end Entries

/-! ## Dependencies -/

/-- An entry all of whose dependencies are on one of the names. -/
def DependsWithin (names : List String) (e : Config.ServiceEntry) : Prop :=
  ∀ d ∈ e.dependsOn, d.service ∈ names

instance (names : List String) (e : Config.ServiceEntry) : Decidable (DependsWithin names e) :=
  inferInstanceAs (Decidable (∀ d ∈ e.dependsOn, d.service ∈ names))

/-- The first dependency that is on none of the names. -/
def FirstDangling (names : List String) (entries : List Config.ServiceEntry) (err : Error) : Prop :=
  ∃ before e after init d rest, entries = before ++ e :: after ∧ e.dependsOn = init ++ d :: rest ∧
    (∀ f ∈ before, DependsWithin names f) ∧ (∀ c ∈ init, c.service ∈ names) ∧ d.service ∉ names ∧
      err = .unknownDependency e.name d.service

section Dependencies

variable {settings : Settings} {entries : List Config.ServiceEntry} {services : List Service}
  {names : List String}

/-- Who depends on whom. -/
def links (entries : List Config.ServiceEntry) : List (String × String) :=
  entries.flatMap fun e => e.dependsOn.map fun d => (e.name, d.service)

theorem mem_links {link : String × String} :
    link ∈ links entries ↔ ∃ e ∈ entries, ∃ d ∈ e.dependsOn, (e.name, d.service) = link := by
  simp only [links, List.mem_flatMap, List.mem_map]

theorem names_of_registers (h : List.Forall₂ (Registers settings) entries services) :
    services.map Service.name = entries.map Config.ServiceEntry.name := by
  induction h with
  | nil => rfl
  | cons registers _ ih => rw [List.map_cons, List.map_cons, registers.name, ih]

theorem links_of_registers (h : List.Forall₂ (Registers settings) entries services) :
    (services.flatMap fun s => s.dependencies.map fun d => (s.name, d.service)) = links entries := by
  induction h with
  | nil => rfl
  | @cons e s _ _ registers _ ih =>
    have own : (s.dependencies.map fun d => (s.name, d.service)) =
        e.dependsOn.map fun d => (e.name, d.service) := by
      rw [registers.dependencies, registers.name, List.map_map]
      rfl
    rw [links, List.flatMap_cons, List.flatMap_cons, own, ih, links]

/-- The dangling dependency of the services is the first link of their entries that leads to no name. -/
theorem Registry.dangling?_of_registers (h : List.Forall₂ (Registers settings) entries services) :
    (dangling? services).map (fun (s, d) => (s.name, d.service)) =
      (links entries).find? fun link => link.2 ∉ entries.map Config.ServiceEntry.name := by
  have named : ∀ name, (!services.any fun s => s.name = name) =
      decide (name ∉ entries.map Config.ServiceEntry.name) := by
    intro name
    rw [← names_of_registers h, Bool.eq_iff_iff]
    simp
  have paired : links entries = (services.flatMap fun s => s.dependencies.map fun d => (s, d)).map
      fun (s, d) => (s.name, d.service) := by
    simp only [← links_of_registers h, List.map_flatMap, List.map_map, Function.comp_def]
  simp only [dangling?, named, paired, List.find?_map, Function.comp_def]

theorem find?_links_eq_some_iff {service missing : String} :
    (links entries).find? (fun link => link.2 ∉ names) = some (service, missing) ↔
      FirstDangling names entries (.unknownDependency service missing) := by
  rw [List.find?_eq_some_iff_append]
  constructor
  · rintro ⟨out, before, after, split, inside⟩
    obtain ⟨front, e, back, fore, rear, rfl, own, rfl, rfl⟩ := flatMap_eq_append_cons split
    obtain ⟨init, tail, depends, rfl, behind⟩ := List.map_eq_append_iff.1 own
    obtain ⟨d, rest, rfl, link, -⟩ := List.map_eq_cons_iff.1 behind
    cases link
    obtain ⟨within, inside⟩ := List.forall_mem_append.1 inside
    refine ⟨front, e, back, init, d, rest, rfl, depends, fun f hf c hc => ?_, fun c hc => ?_,
      by simpa using out, rfl⟩
    · simpa using within _ (mem_links.2 ⟨f, hf, c, hc, rfl⟩)
    · simpa using inside _ (List.mem_map_of_mem hc)
  · rintro ⟨before, e, after, init, d, rest, rfl, own, within, inside, out, ⟨⟩⟩
    refine ⟨by simpa using out, links before ++ init.map fun c => (e.name, c.service),
      (rest.map fun c => (e.name, c.service)) ++ links after, by simp [links, own], ?_⟩
    refine List.forall_mem_append.2 ⟨fun link hl => ?_, fun link hl => ?_⟩
    · obtain ⟨f, hf, c, hc, rfl⟩ := mem_links.1 hl
      simpa using within f hf c hc
    · obtain ⟨c, hc, rfl⟩ := List.mem_map.1 hl
      simpa using inside c hc

theorem find?_links_eq_none_iff :
    (links entries).find? (fun link => link.2 ∉ names) = none ↔ ∀ e ∈ entries, DependsWithin names e := by
  simp only [List.find?_eq_none, mem_links, DependsWithin]
  constructor
  · intro inside e he d hd
    simpa using inside _ ⟨e, he, d, hd, rfl⟩
  · rintro within _ ⟨e, he, d, hd, rfl⟩
    simpa using within e he d hd

end Dependencies

/-! ## The registry -/

/-- The first entry that has a fault beside those before it. -/
def FirstFault (settings : Settings) (err : Error) : Prop :=
  ∃ before e after, settings.services = before ++ e :: after ∧ Sound settings before ∧
    EntryFault settings (before.map Config.ServiceEntry.name) e err

namespace Registry

variable {settings : Settings} {err : Error} {r : Registry}

theorem register_nil_eq_error_iff :
    register settings [] settings.services = .error err ↔ FirstFault settings err := by
  rw [register_eq_error_iff, FirstFault]
  simp

theorem ofSettings_eq_ok_iff : ofSettings settings = .ok r ↔
    ∃ services, register settings [] settings.services = .ok services ∧ dangling? services = none ∧
      r = ⟨settings.projectRoot, services⟩ := by
  rw [ofSettings, bind_eq_ok]
  refine exists_congr fun services => and_congr_right fun _ => ?_
  cases dangling? services with
  | none => simp [pure, Except.pure, eq_comm]
  | some link => simp [throw, throwThe, MonadExceptOf.throw]

theorem ofSettings_eq_error_iff : ofSettings settings = .error err ↔
    register settings [] settings.services = .error err ∨
      ∃ services, register settings [] settings.services = .ok services ∧
        ∃ s d, dangling? services = some (s, d) ∧ err = .unknownDependency s.name d.service := by
  rw [ofSettings, bind_eq_error]
  refine or_congr_right (exists_congr fun services => and_congr_right fun _ => ?_)
  cases dangling? services with
  | none => simp [pure, Except.pure]
  | some link => simp [throw, throwThe, MonadExceptOf.throw, eq_comm, Prod.ext_iff]

/-- Settings make a registry just if no entry has a fault and every dependency leads to an entry; if
not, the first such entry is the error, or, where there is none, the first dependency that leads
nowhere. The registry has the services of the entries, in their order. -/
theorem ofSettings_decides (settings : Settings) :
    let names := settings.services.map Config.ServiceEntry.name
    (Works (ofSettings settings) ↔
      Sound settings settings.services ∧ ∀ e ∈ settings.services, DependsWithin names e) ∧
    (∀ err, ofSettings settings = .error err ↔ FirstFault settings err ∨
      Sound settings settings.services ∧ FirstDangling names settings.services err) ∧
    ∀ r, ofSettings settings = .ok r → r.projectRoot = settings.projectRoot ∧
      List.Forall₂ (Registers settings) settings.services r.services := by
  intro names
  have sound : Works (register settings [] settings.services) ↔ Sound settings settings.services := by
    rw [works_register]
    simp
  refine ⟨?_, fun err => ?_, fun r built => ?_⟩
  · rw [← sound, ← find?_links_eq_none_iff]
    constructor
    · rintro ⟨r, built⟩
      obtain ⟨services, made, whole, -⟩ := ofSettings_eq_ok_iff.1 built
      refine ⟨⟨services, made⟩, ?_⟩
      rw [← dangling?_of_registers (registers_of_register made), whole, Option.map_none]
    · rintro ⟨⟨services, made⟩, whole⟩
      rw [← dangling?_of_registers (registers_of_register made), Option.map_eq_none_iff] at whole
      exact ⟨_, ofSettings_eq_ok_iff.2 ⟨services, made, whole, rfl⟩⟩
  · rw [ofSettings_eq_error_iff, register_nil_eq_error_iff, ← sound]
    refine or_congr_right ?_
    constructor
    · rintro ⟨services, made, s, d, out, rfl⟩
      refine ⟨⟨services, made⟩, find?_links_eq_some_iff.1 ?_⟩
      rw [← dangling?_of_registers (registers_of_register made), out, Option.map_some]
    · rintro ⟨⟨services, made⟩, dangling⟩
      obtain ⟨-, e, -, -, d, -, -, -, -, -, -, rfl⟩ := id dangling
      have out := find?_links_eq_some_iff.2 dangling
      rw [← dangling?_of_registers (registers_of_register made), Option.map_eq_some_iff] at out
      obtain ⟨⟨s, c⟩, out, same⟩ := out
      obtain ⟨name, service⟩ := Prod.mk.inj same
      exact ⟨services, made, s, c, out, by rw [name, service]⟩
  · obtain ⟨services, made, -, rfl⟩ := ofSettings_eq_ok_iff.1 built
    exact ⟨rfl, registers_of_register made⟩

end Registry

/-- A service that lists an API twice and depends on itself and on `target`, and one that is written
in `language`. -/
def linkedSettings (target language : String) : Settings where
  projectRoot := ⟨"/repo"⟩
  configPath := ⟨"/repo/.crossdeps.toml"⟩
  checks := .all
  exclude := ["gen"]
  includeTests := false
  services := [⟨"web", "ts", "web", ["src"], [], ["/a", "/b", "/a"], [], [.named "web", .named target]⟩,
    ⟨"api", language, "api", [], [], [], [], []⟩]

/-- A dependency on a later service is one like any other; where one leads nowhere, a language that is
unknown goes before it. -/
theorem Registry.ofSettings_decides_linked :
    (∃ r, ofSettings (linkedSettings "api" "go") = .ok r ∧
      r.services.map Service.name = ["web", "api"] ∧
        r.services.map Service.provides = [["/a", "/b"], []]) ∧
    ofSettings (linkedSettings "none" "cobol") = .error (.unknownLanguage "api" "cobol") ∧
    ofSettings (linkedSettings "none" "go") = .error (.unknownDependency "web" "none") := by
  have src : IsGlob "src" := ⟨[.literal 's', .literal 'r', .literal 'c'], by cbv⟩
  have gen : IsGlob "gen" := ⟨[.literal 'g', .literal 'e', .literal 'n'], by cbv⟩
  have ts : Language.ofName? "ts" = some .typescript := by cbv
  have go : Language.ofName? "go" = some .go := by cbv
  have cobol : Language.ofName? "cobol" = none := by cbv
  have web : ∀ target language, Fits (linkedSettings target language)
      ⟨"web", "ts", "web", ["src"], [], ["/a", "/b", "/a"], [], [.named "web", .named target]⟩ :=
    fun _ _ => ⟨⟨_, ts⟩, by simpa using src, by simpa [linkedSettings] using gen⟩
  have api : ∀ target, Fits (linkedSettings target "go") ⟨"api", "go", "api", [], [], [], [], []⟩ :=
    fun _ => ⟨⟨_, go⟩, by simp, by simpa [linkedSettings] using gen⟩
  have sound : ∀ target, Sound (linkedSettings target "go") (linkedSettings target "go").services :=
    fun target => ⟨by simp [linkedSettings], List.forall_mem_cons.2 ⟨web _ _, List.forall_mem_singleton.2 (api _)⟩⟩
  refine ⟨?_, ?_, ?_⟩
  · obtain ⟨accepted, -, made⟩ := ofSettings_decides (linkedSettings "api" "go")
    obtain ⟨⟨root, services⟩, built⟩ := accepted.2 ⟨sound _, by decide⟩
    obtain ⟨-, registers⟩ := made _ built
    obtain _ | ⟨first, _ | ⟨second, _ | _⟩⟩ := registers
    refine ⟨_, built, ?_, ?_⟩
    · simp [first.name, second.name]
    · simp only [List.map_cons, List.map_nil, first.provides, second.provides]
      decide
  · refine ((ofSettings_decides (linkedSettings "none" "cobol")).2.1 _).2 (.inl ?_)
    exact ⟨[_], ⟨"api", "cobol", "api", [], [], [], [], []⟩, [], rfl,
      ⟨by decide, List.forall_mem_singleton.2 (web _ _)⟩, .language (by decide) cobol⟩
  · refine ((ofSettings_decides (linkedSettings "none" "go")).2.1 _).2 (.inr ⟨sound _, ?_⟩)
    exact ⟨[], _, _, [.named "web"], .named "none", [], rfl, rfl, by simp, by decide, by decide, rfl⟩

end ServiceMap
