import Mathlib.Data.List.Nodup
import ServiceMap.Registry

/-! What holds of every registry that the settings of a run give: each name is that of one service. -/

namespace ServiceMap

theorem bind_eq_ok {ε α β : Type} {x : Except ε α} {f : α → Except ε β} {b : β} :
    x >>= f = .ok b ↔ ∃ a, x = .ok a ∧ f a = .ok b := by
  cases x with
  | error e => simp [bind, Except.bind]
  | ok a => simp [bind, Except.bind]

theorem Service.ofEntry_name {settings : Settings} {e : Config.ServiceEntry} {s : Service}
    (h : Service.ofEntry settings e = .ok s) : s.name = e.name := by
  rw [ofEntry] at h
  split at h
  · obtain ⟨language, -, h⟩ := bind_eq_ok.1 h
    obtain ⟨included, -, h⟩ := bind_eq_ok.1 h
    obtain ⟨excluded, -, h⟩ := bind_eq_ok.1 h
    cases h
    rfl
  · cases h

namespace Registry

variable {settings : Settings} {taken : List String} {services : List Service}

theorem register_cons {e : Config.ServiceEntry} {entries : List Config.ServiceEntry}
    (h : register settings taken (e :: entries) = .ok services) :
    e.name ∉ taken ∧ ∃ s rest, Service.ofEntry settings e = .ok s ∧
      register settings (e.name :: taken) entries = .ok rest ∧ services = s :: rest := by
  rw [register] at h
  split at h
  · cases h
  · next new =>
    obtain ⟨s, made, h⟩ := bind_eq_ok.1 h
    obtain ⟨rest, later, h⟩ := bind_eq_ok.1 h
    cases h
    exact ⟨by simpa using new, s, rest, made, later, rfl⟩

theorem register_nodup {entries : List Config.ServiceEntry}
    (h : register settings taken entries = .ok services) :
    (services.map Service.name).Nodup ∧ ∀ s ∈ services, s.name ∉ taken := by
  induction entries generalizing taken services with
  | nil =>
    cases h
    simp
  | cons e entries ih =>
    obtain ⟨new, s, rest, made, later, rfl⟩ := register_cons h
    obtain ⟨nodup, apart⟩ := ih later
    have name : s.name = e.name := Service.ofEntry_name made
    simp only [List.mem_cons, not_or] at apart
    constructor
    · rw [List.map_cons, List.nodup_cons]
      refine ⟨fun taken => ?_, nodup⟩
      obtain ⟨t, ht, same⟩ := List.mem_map.1 taken
      exact (apart t ht).1 (same.trans name)
    · intro t ht
      rcases List.mem_cons.1 ht with rfl | ht
      · rwa [name]
      · exact (apart t ht).2

theorem ofSettings_nodup {r : Registry} (h : ofSettings settings = .ok r) :
    (r.services.map Service.name).Nodup := by
  obtain ⟨services, registered, h⟩ := bind_eq_ok.1 h
  split at h
  · cases h
  · cases h
    exact (register_nodup registered).1

/-- A service is told by its name. -/
theorem eq_of_name_eq {r : Registry} (built : ofSettings settings = .ok r) {s t : Service}
    (hs : s ∈ r.services) (ht : t ∈ r.services) (same : s.name = t.name) : s = t :=
  List.inj_on_of_nodup_map (ofSettings_nodup built) hs ht same

theorem find?_of_mem {r : Registry} (built : ofSettings settings = .ok r) {s : Service}
    (hs : s ∈ r.services) : r.find? s.name = some s := by
  cases found : r.find? s.name with
  | none =>
    have other := List.find?_eq_none.1 found s hs
    simp at other
  | some t =>
    have same : t.name = s.name := by simpa using List.find?_some found
    rw [eq_of_name_eq built (List.mem_of_find?_eq_some found) hs same]

end Registry
end ServiceMap
