import ServiceMap.Proofs.Ownership

/-! Who owns a place. The roots around it stand one above the other, so that those of the greatest depth
are one and the same root, and all others are above it. The owner is the last of the services with that
root, however they write it. -/

namespace ServiceMap.Registry

variable {r : Registry} {p : Path} {s t : Service}

/-- A service with a root around the place, when no root around it is deeper. -/
structure Deepest (r : Registry) (p : Path) (s : Service) : Prop where
  registered : s ∈ r.services
  around : s.root.components <+: p.components
  depth : ∀ t ∈ r.services, t.root.components <+: p.components →
    t.root.components.length ≤ s.root.components.length

namespace Deepest

/-- Of two roots around one place that of no greater depth is above the other. -/
theorem below (h : r.Deepest p s) (ht : t ∈ r.services) (around : t.root.components <+: p.components) :
    t.root.components <+: s.root.components :=
  List.prefix_of_prefix_length_le around h.around (h.depth t ht around)

theorem root_eq (hs : r.Deepest p s) (ht : r.Deepest p t) : s.root.components = t.root.components :=
  (ht.below hs.registered hs.around).eq_of_length_le (hs.depth t ht.registered ht.around)

/-- What has the root of a deepest service is one, too. -/
theorem of_root_eq (h : r.Deepest p s) (ht : t ∈ r.services)
    (same : t.root.components = s.root.components) : r.Deepest p t :=
  ⟨ht, same ▸ h.around, same ▸ h.depth⟩

end Deepest

theorem owner?_eq_none_iff :
    r.owner? p = none ↔ ∀ s ∈ r.services, ¬ s.root.components <+: p.components := by
  constructor
  · intro unowned s hs around
    obtain ⟨owner, owned⟩ := exists_owner? hs (Path.isUnder_iff.2 around)
    rw [unowned] at owned
    cases owned
  · intro outside
    cases owned : r.owner? p with
    | none => rfl
    | some owner =>
      obtain ⟨registered, around, -⟩ := owner?_deepest owned
      exact absurd (Path.isUnder_iff.1 around) (outside owner registered)

theorem deepest_of_owner? (h : r.owner? p = some s) : r.Deepest p s := by
  obtain ⟨registered, around, above⟩ := owner?_deepest h
  refine ⟨registered, Path.isUnder_iff.1 around, fun t ht inside => ?_⟩
  exact (above t ht (Path.isUnder_iff.2 inside)).length_le

/-- No service behind the owner has its root. -/
theorem last_of_owner? (h : r.owner? p = some s) : ∃ before after, r.services = before ++ s :: after ∧
    ∀ t ∈ after, t.root.components ≠ s.root.components := by
  obtain ⟨front, back, split, behind⟩ := owner?_split h
  have contains := (owner?_deepest h).2.1
  refine ⟨front, back, split, fun t ht same => ?_⟩
  have inside : t.contains p = true := Path.isUnder_iff.2 (same ▸ Path.isUnder_iff.1 contains)
  have lt := behind t ht inside
  rw [same] at lt
  exact Nat.lt_irrefl _ lt

theorem owner?_eq_some_iff : r.owner? p = some s ↔ r.Deepest p s ∧ ∃ before after,
    r.services = before ++ s :: after ∧ ∀ t ∈ after, t.root.components ≠ s.root.components := by
  constructor
  · exact fun owned => ⟨deepest_of_owner? owned, last_of_owner? owned⟩
  · rintro ⟨deepest, before, after, place, last⟩
    have registered : ∀ t ∈ before ++ s :: after, t ∈ r.services := fun t ht => place ▸ ht
    refine owner?_of_deepest place (Path.isUnder_iff.2 deepest.around) ?_ ?_
    · intro t ht inside
      exact deepest.depth t (registered t (by simp [ht])) (Path.isUnder_iff.1 inside)
    · intro t ht inside
      have above := deepest.below (registered t (by simp [ht])) (Path.isUnder_iff.1 inside)
      have le := above.length_le
      exact lt_of_le_of_ne le fun same => last t ht (above.eq_of_length same)

/-- A place has no owner just if no root is around it. Of the roots around it the deepest are one, all
others are above that one, and the owner is the last service that has it. -/
theorem owner?_longest (r : Registry) (p : Path) :
    (r.owner? p = none ↔ ∀ s ∈ r.services, ¬ s.root.components <+: p.components) ∧
    (∀ s t, r.Deepest p s → r.Deepest p t → s.root.components = t.root.components) ∧
    (∀ s t, r.Deepest p s → t ∈ r.services → t.root.components <+: p.components → ¬ r.Deepest p t →
      t.root.components <+: s.root.components ∧ t.root.components ≠ s.root.components) ∧
    ∀ s, r.owner? p = some s ↔ r.Deepest p s ∧ ∃ before after,
      r.services = before ++ s :: after ∧ ∀ t ∈ after, t.root.components ≠ s.root.components := by
  refine ⟨owner?_eq_none_iff, fun s t hs ht => hs.root_eq ht, fun s t hs ht around other => ?_,
    fun s => owner?_eq_some_iff⟩
  exact ⟨hs.below ht around, fun same => other (hs.of_root_eq ht same)⟩

/-- One service in the root of another, and a third one that writes the root of the first in another
way. -/
def sharedRoots : Registry where
  projectRoot := ⟨"/"⟩
  services := [⟨"jobs", .python, ⟨"/app/jobs"⟩, ⟨"app/jobs"⟩, ⟨none, none, true⟩, [], [], []⟩,
    ⟨"web", .typescript, ⟨"/app"⟩, ⟨"app"⟩, ⟨none, none, true⟩, [], [], []⟩,
    ⟨"cron", .go, ⟨"/app/./jobs/"⟩, ⟨"app/./jobs/"⟩, ⟨none, none, true⟩, [], [], []⟩]

theorem owner?_longest_sharedRoots :
    (∃ s, s.name = "cron" ∧ sharedRoots.Deepest ⟨"/app/jobs/m.go"⟩ s ∧
      sharedRoots.owner? ⟨"/app/jobs/m.go"⟩ = some s) ∧
    sharedRoots.owner? ⟨"/apps/m.go"⟩ = none := by
  have jobs : Path.components ⟨"/app/jobs"⟩ = [.root, .name "app", .name "jobs"] := by cbv
  have app : Path.components ⟨"/app"⟩ = [.root, .name "app"] := by cbv
  have again : Path.components ⟨"/app/./jobs/"⟩ = [.root, .name "app", .name "jobs"] := by cbv
  have file : Path.components ⟨"/app/jobs/m.go"⟩ =
      [.root, .name "app", .name "jobs", .name "m.go"] := by cbv
  have other : Path.components ⟨"/apps/m.go"⟩ = [.root, .name "apps", .name "m.go"] := by cbv
  obtain ⟨-, -, -, owned⟩ := owner?_longest sharedRoots ⟨"/app/jobs/m.go"⟩
  obtain ⟨unowned, -, -, -⟩ := owner?_longest sharedRoots ⟨"/apps/m.go"⟩
  have deepest : sharedRoots.Deepest ⟨"/app/jobs/m.go"⟩
      ⟨"cron", .go, ⟨"/app/./jobs/"⟩, ⟨"app/./jobs/"⟩, ⟨none, none, true⟩, [], [], []⟩ := by
    refine ⟨by simp [sharedRoots], by simp [again, file], ?_⟩
    simp [sharedRoots, jobs, app, again]
  have last := (owned _).2 ⟨deepest, sharedRoots.services.take 2, [], rfl, by simp⟩
  refine ⟨⟨_, rfl, deepest, last⟩, unowned.2 ?_⟩
  simp [sharedRoots, jobs, app, again, other]

end ServiceMap.Registry
