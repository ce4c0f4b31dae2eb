import Mathlib
import ServiceMap.Proofs.Acceptance
import ServiceMap.Proofs.Declarations

/-! The APIs that an entry lists are held once each, but its dependencies as they are written, repetitions
included. So the report lists an unused dependency as often as it is written, and is strictly ascending just
if no entry repeats one. -/

namespace ServiceMap

open scoped List

variable {settings : Settings} {r : Registry} {entries : List Config.ServiceEntry} {services : List Service}

theorem distinct_nodup {α : Type} [DecidableEq α] (l : List α) : (distinct l).Nodup := by
  -- from the end, as what is kept depends on what is before it
  induction l using List.reverseRecOn with
  | nil => exact .nil
  | append_singleton l a ih =>
    rw [distinct, List.eraseDups_append, ← distinct]
    by_cases again : a ∈ l
    · simpa [List.removeAll, again] using ih
    · have new : a ∉ distinct l := fun mem => again (List.mem_eraseDups.1 mem)
      simpa [List.removeAll, again, List.eraseDups_cons, List.nodup_append] using
        ⟨ih, fun b hb eq => new (eq ▸ hb)⟩

/-- The services on which an entry says that it depends, as they are written. -/
def Config.ServiceEntry.targets (e : Config.ServiceEntry) : List String :=
  e.dependsOn.map Config.Declaration.service

/-- How a service holds what its entry lists. -/
structure Holds (e : Config.ServiceEntry) (s : Service) : Prop where
  name : s.name = e.name
  provides_nodup : s.provides.Nodup
  mem_provides : ∀ a, a ∈ s.provides ↔ a ∈ e.provides
  consumes_nodup : s.consumes.Nodup
  mem_consumes : ∀ a, a ∈ s.consumes ↔ a ∈ e.consumes
  dependencies : s.dependencies = e.dependsOn.map fun d => ⟨d.service, d.requirement⟩

theorem Registers.holds {e : Config.ServiceEntry} {s : Service} (h : Registers settings e s) : Holds e s := by
  have provides : s.provides = distinct e.provides := h.provides.trans (distinct_eq _).symm
  have consumes : s.consumes = distinct e.consumes := h.consumes.trans (distinct_eq _).symm
  exact ⟨h.name, provides ▸ distinct_nodup _, fun a => provides ▸ List.mem_eraseDups,
    consumes ▸ distinct_nodup _, fun a => consumes ▸ List.mem_eraseDups, h.dependencies⟩

theorem Registry.registers_of_ofSettings (built : ofSettings settings = .ok r) :
    List.Forall₂ (Registers settings) settings.services r.services := by
  obtain ⟨services, made, -, rfl⟩ := ofSettings_eq_ok_iff.1 built
  exact registers_of_register made

namespace DeclarationReport

/-- The dependencies of the entries along which no edge leads, as they are written. -/
def unusedOf (edges : List Edge) (entries : List Config.ServiceEntry) : List UnusedDeclaration :=
  entries.flatMap fun e => (e.dependsOn.filter fun d => ¬ Depends edges e.name d.service).map fun d =>
    ⟨e.name, d.service, d.requirement⟩

theorem declarations_of_registers (h : List.Forall₂ (Registers settings) entries services) :
    (services.flatMap fun s =>
        s.dependencies.map fun d => (⟨s.name, d.service, d.requirement⟩ : UnusedDeclaration)) =
      entries.flatMap fun e => e.dependsOn.map fun d => ⟨e.name, d.service, d.requirement⟩ := by
  induction h with
  | nil => rfl
  | cons registers _ ih =>
    rw [List.flatMap_cons, List.flatMap_cons, ih, registers.dependencies, registers.name, List.map_map]
    rfl

theorem unused_perm_unusedOf (built : Registry.ofSettings settings = .ok r) (edges : List Edge) :
    (ofEdges edges r).unused ~ unusedOf edges settings.services := by
  refine (classifies_ofEdges built edges).unused_perm.trans (List.Perm.of_eq ?_)
  rw [declarations_of_registers (Registry.registers_of_ofSettings built), List.filter_flatMap]
  simp only [List.filter_map, Function.comp_def, unusedOf]

/-- What an unused dependency is told by. -/
def key (u : UnusedDeclaration) : String × String := (u.service, u.dependency)

theorem key_eq_iff {u v : UnusedDeclaration} : key u = key v ↔ unusedOrder u v = .eq := by
  simp [key, unusedOrder, compareLex, compareOn, Ordering.then_eq_eq]

/-- A sorted list is strictly ascending when no two members have one key. -/
theorem pairwise_lt_iff_nodup {l : List UnusedDeclaration}
    (sorted : l.Pairwise fun u v => (unusedOrder u v).isLE) :
    l.Pairwise (fun u v => unusedOrder u v = .lt) ↔ (l.map key).Nodup := by
  rw [List.Nodup, List.pairwise_map]
  constructor
  · refine fun strict => strict.imp fun {u v} lt same => ?_
    rw [key_eq_iff.1 same] at lt
    cases lt
  · refine fun apart => (sorted.and apart).imp fun {u v} ⟨le, differ⟩ => ?_
    cases h : unusedOrder u v with
    | lt => rfl
    | eq => exact absurd (key_eq_iff.2 h) differ
    | gt => simp [h] at le

theorem keys_unusedOf (edges : List Edge) (entries : List Config.ServiceEntry) :
    (unusedOf edges entries).map key = entries.flatMap fun e =>
      (e.targets.filter fun d => ¬ Depends edges e.name d).map (Prod.mk e.name) := by
  simp only [unusedOf, Config.ServiceEntry.targets, List.map_flatMap, List.filter_map, List.map_map,
    Function.comp_def, key]

/-- Entries with names of their own repeat a key only within one of them. -/
theorem nodup_keys_unusedOf (names : (entries.map Config.ServiceEntry.name).Nodup) (edges : List Edge) :
    ((unusedOf edges entries).map key).Nodup ↔
      ∀ e ∈ entries, (e.targets.filter fun d => ¬ Depends edges e.name d).Nodup := by
  have apart : entries.Pairwise (Function.onFun List.Disjoint fun e =>
      (e.targets.filter fun d => ¬ Depends edges e.name d).map (Prod.mk e.name)) := by
    refine (List.pairwise_map.1 names).imp fun {e f} differ p he hf => ?_
    obtain ⟨_, -, rfl⟩ := List.mem_map.1 he
    obtain ⟨_, -, same⟩ := List.mem_map.1 hf
    exact differ (Prod.mk.inj same).1.symm
  rw [keys_unusedOf, List.nodup_flatMap, and_iff_left apart]
  exact forall₂_congr fun e _ => List.nodup_map_iff fun _ _ eq => (Prod.mk.inj eq).2

/-- The APIs of an entry are held once each and its dependencies as they are written. What is unused of these
is reported as often as it is written, and the report is strictly ascending just if no entry repeats a
dependency along which no edge leads. -/
theorem unused_as_written (built : Registry.ofSettings settings = .ok r) :
    List.Forall₂ Holds settings.services r.services ∧
      ∀ edges, (ofEdges edges r).unused ~ unusedOf edges settings.services ∧
        ((ofEdges edges r).unused.Pairwise (fun u v => unusedOrder u v = .lt) ↔
          ∀ e ∈ settings.services, (e.targets.filter fun d => ¬ Depends edges e.name d).Nodup) := by
  have registers := Registry.registers_of_ofSettings built
  have names : (settings.services.map Config.ServiceEntry.name).Nodup := by
    rw [← names_of_registers registers]
    exact Registry.ofSettings_nodup built
  refine ⟨registers.imp fun _ _ => Registers.holds, fun edges => ?_⟩
  have perm := unused_perm_unusedOf built edges
  refine ⟨perm, ?_⟩
  rw [pairwise_lt_iff_nodup (classifies_ofEdges built edges).unused_ascending,
    (perm.map key).nodup_iff, nodup_keys_unusedOf names]

/-- A service that depends on two others, and says so of one of them twice. -/
def repeatingSettings : Settings where
  projectRoot := ⟨"/"⟩
  configPath := ⟨"/c"⟩
  checks := .all
  exclude := []
  includeTests := false
  services := [⟨"web", "ts", "web", [], [], ["/a", "/b", "/a"], [],
      [.named "api", .named "mail", .named "api"]⟩,
    ⟨"api", "go", "api", [], [], [], [], []⟩, ⟨"mail", "py", "mail", [], [], [], [], []⟩]

def repeatingRegistry : Registry where
  projectRoot := ⟨"/"⟩
  services := [⟨"web", .typescript, ⟨"/web"⟩, ⟨"web"⟩, ⟨none, none, false⟩, ["/a", "/b"], [],
      [⟨"api", .required⟩, ⟨"mail", .required⟩, ⟨"api", .required⟩]⟩,
    ⟨"api", .go, ⟨"/api"⟩, ⟨"api"⟩, ⟨none, none, false⟩, [], [], []⟩,
    ⟨"mail", .python, ⟨"/mail"⟩, ⟨"mail"⟩, ⟨none, none, false⟩, [], [], []⟩]

theorem repeating_built : Registry.ofSettings repeatingSettings = .ok repeatingRegistry := by cbv

/-- With an edge along the dependency that is written twice, the report is strictly ascending. -/
theorem unused_as_written_repeating :
    Registry.ofSettings repeatingSettings = .ok repeatingRegistry ∧
      (ofEdges [⟨"web", "api", .ofList ["x"]⟩] repeatingRegistry).unused ~ [⟨"web", "mail", .required⟩] ∧
      (ofEdges [⟨"web", "api", .ofList ["x"]⟩] repeatingRegistry).unused.Pairwise
        (fun u v => unusedOrder u v = .lt) := by
  obtain ⟨-, reported⟩ := unused_as_written repeating_built
  obtain ⟨perm, strict⟩ := reported [⟨"web", "api", .ofList ["x"]⟩]
  have unused : unusedOf [⟨"web", "api", .ofList ["x"]⟩] repeatingSettings.services =
      [⟨"web", "mail", .required⟩] := by decide
  exact ⟨repeating_built, unused ▸ perm, strict.2 (by decide)⟩

/-- Without one, the dependency is reported twice. -/
theorem dependency_repeated :
    Registry.ofSettings repeatingSettings = .ok repeatingRegistry ∧
      (repeatingRegistry.services.map fun s => s.dependencies.map Dependency.service) =
        [["api", "mail", "api"], [], []] ∧
      (ofEdges [] repeatingRegistry).unused =
        [⟨"web", "api", .required⟩, ⟨"web", "api", .required⟩, ⟨"web", "mail", .required⟩] ∧
      ¬ (ofEdges [] repeatingRegistry).unused.Pairwise fun u v => unusedOrder u v = .lt := by
  have unused : (ofEdges [] repeatingRegistry).unused =
      [⟨"web", "api", .required⟩, ⟨"web", "api", .required⟩, ⟨"web", "mail", .required⟩] := by
    rw [unused_ofEdges]
    cbv
  exact ⟨repeating_built, rfl, unused, by rw [unused]; decide⟩

end DeclarationReport
end ServiceMap
