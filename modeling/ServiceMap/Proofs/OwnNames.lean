import ServiceMap.Proofs.Resolution
import ServiceMap.Proofs.Segments

/-! An API is reached by its own name. A name that stands within another one is shorter, so of the APIs
that a name reaches those with the same segments are the longest, and the first of them is what it
resolves to. -/

namespace ServiceMap

namespace Target

/-- The path of the name has no doubled slash in it. -/
def Single (name : String) : Prop := ¬ ['/', '/'] <:+: normalize name.toList

instance (name : String) : Decidable (Single name) := inferInstanceAs (Decidable (¬ _ <:+: _))

variable {target name : String}

theorem normalize_eq_of_pathSegments (ht : Single target) (hn : Single name)
    (same : pathSegments name = pathSegments target) : normalize name.toList = normalize target.toList := by
  rw [← joinWith_segments hn, ← joinWith_segments ht]
  exact congrArg _ same

theorem pathSegments_ne_nil (hn : Single name) (ne : normalize name.toList ≠ []) :
    pathSegments name ≠ [] := by
  intro none
  refine ne (joinWith_segments hn ▸ ?_)
  rw [show segments (normalize name.toList) = [] from none]
  rfl

/-- What a name reaches is itself or shorter. -/
theorem nameLength_lt_of_reaches (ht : Single target) (hn : Single name) (h : Reaches target name)
    (differ : pathSegments name ≠ pathSegments target) : nameLength name < nameLength target := by
  have shorter : (Text.joinWith '/' (pathSegments name)).length <
      (Text.joinWith '/' (pathSegments target)).length := Text.length_joinWith_lt h.2 h.1 differ
  rwa [pathSegments, pathSegments, joinWith_segments hn, joinWith_segments ht] at shorter

theorem reaches_of_pathSegments (full : pathSegments target ≠ [])
    (same : pathSegments name = pathSegments target) : Reaches target name := by
  change pathSegments name ≠ [] ∧ pathSegments name <:+: pathSegments target
  rw [same]
  exact ⟨full, List.infix_refl _⟩

end Target

open Target

/-- Of two members of a list one comes first, or they stand in the same place. -/
theorem places_compare {α : Type} {l m l' m' : List α} {a b : α} (h : l ++ a :: m = l' ++ b :: m') :
    a ∈ l' ∨ b ∈ l ∨ l = l' ∧ a = b := by
  rcases List.append_eq_append_iff.1 h with ⟨between, rfl, rest⟩ | ⟨between, rfl, rest⟩
  · cases between with
    | nil => exact .inr (.inr ⟨by simp, (List.cons.inj rest).1⟩)
    | cons c between => exact .inl (by simp [(List.cons.inj rest).1])
  · cases between with
    | nil => exact .inr (.inr ⟨by simp, (List.cons.inj rest).1.symm⟩)
    | cons c between => exact .inr (.inl (by simp [(List.cons.inj rest).1]))

namespace Registry

variable {r : Registry} {s : Service} {api : String}

/-- No API has a doubled slash in the path of its name. -/
def SingleNames (r : Registry) : Prop := ∀ s ∈ r.services, ∀ api ∈ s.provides, Single api

/-- The name has the segments of the target, and none before it in the order of the registry has. -/
structure FirstSame (target : String) (earlier : List Service) (front : List String) (name : String) :
    Prop where
  same : pathSegments name = pathSegments target
  afterServices : ∀ t ∈ earlier, ∀ a ∈ t.provides, pathSegments a ≠ pathSegments target
  afterListed : ∀ a ∈ front, pathSegments a ≠ pathSegments target

/-- The longest name that an API reaches by its own name has the same segments, because it reaches that
one. -/
theorem FirstLongest.firstSame {earlier later : List Service} {t : Service} {front back : List String}
    {name : String} (single : r.SingleNames) (hs : s ∈ r.services) (provided : api ∈ s.provides)
    (ne : normalize api.toList ≠ []) (services : r.services = earlier ++ t :: later)
    (provides : t.provides = front ++ name :: back) (first : r.FirstLongest api earlier front name) :
    FirstSame api earlier front name := by
  have own : Single api := single s hs api provided
  have full : pathSegments api ≠ [] := pathSegments_ne_nil own ne
  have member : ∀ u ∈ earlier ++ t :: later, u ∈ r.services := fun u hu => services ▸ hu
  have named : Single name := single t (member t (by simp)) name (by simp [provides])
  -- the API reaches itself, so what it resolves to is no shorter than it is
  have le : nameLength api ≤ nameLength name :=
    first.longest s hs api provided (reaches_of_pathSegments full rfl)
  have same : pathSegments name = pathSegments api := by
    by_contra differ
    exact Nat.not_lt.2 le (nameLength_lt_of_reaches own named first.reaches differ)
  have level : ∀ a, Single a → pathSegments a = pathSegments api → nameLength a = nameLength name :=
    fun a ha alike => congrArg List.length (normalize_eq_of_pathSegments named ha (alike.trans same.symm))
  refine ⟨same, fun u hu a ha alike => ?_, fun a ha alike => ?_⟩
  · have lt : nameLength a < nameLength name :=
      first.afterServices u hu a ha (reaches_of_pathSegments full alike)
    exact lt.ne (level a (single u (member u (by simp [hu])) a ha) alike)
  · have lt : nameLength a < nameLength name :=
      first.afterListed a ha (reaches_of_pathSegments full alike)
    exact lt.ne (level a (single t (member t (by simp)) a (by simp [provides, ha])) alike)

/-- An API whose name has the same path, and which is registered before the one at this place. -/
inductive Shadows (api : String) (earlier : List Service) (s : Service) (front : List String) :
    Resolution → Prop
  | service {t : Service} {name : String} (ht : t ∈ earlier) (hn : name ∈ t.provides)
    (same : normalize name.toList = normalize api.toList) : Shadows api earlier s front ⟨t.name, name⟩
  | listed {name : String} (hn : name ∈ front)
    (same : normalize name.toList = normalize api.toList) : Shadows api earlier s front ⟨s.name, name⟩

/-- The name of an API resolves to the first API with the same segments. So nothing stands between an API
and its own name but one with the same path that is registered before it. -/
theorem resolves_own_name (single : r.SingleNames) (hs : s ∈ r.services) (provided : api ∈ s.provides)
    (ne : normalize api.toList ≠ []) :
    (∃ earlier t later front name back, r.services = earlier ++ t :: later ∧
        t.provides = front ++ name :: back ∧ r.resolve? api = some ⟨t.name, name⟩ ∧
        FirstSame api earlier front name) ∧
      ∀ earlier later front back, r.services = earlier ++ s :: later →
        s.provides = front ++ api :: back →
          r.resolve? api = some ⟨s.name, api⟩ ∨
            ∃ x, r.resolve? api = some x ∧ Shadows api earlier s front x := by
  have own : Single api := single s hs api provided
  have full : pathSegments api ≠ [] := pathSegments_ne_nil own ne
  obtain ⟨x, found⟩ : ∃ x, r.resolve? api = some x := by
    rw [← Option.isSome_iff_exists, Option.isSome_iff_ne_none, Ne, resolve?_eq_none_iff]
    exact fun none => none s hs api provided (reaches_of_pathSegments full rfl)
  obtain ⟨earlier, t, later, front, name, back, services, provides, rfl, longest⟩ :=
    resolve?_eq_some_iff.1 found
  have first : FirstSame api earlier front name :=
    longest.firstSame single hs provided ne services provides
  refine ⟨⟨earlier, t, later, front, name, back, services, provides, found, first⟩, ?_⟩
  intro before after init rest place listed
  have ht : t ∈ r.services := by simp [services]
  have same : normalize name.toList = normalize api.toList :=
    normalize_eq_of_pathSegments own (single t ht name (by simp [provides])) first.same
  -- what is found stands before the API, or the API is among what came before it, or they are the same
  rcases places_compare (services.symm.trans place) with inEarlier | behind | ⟨-, rfl⟩
  · exact .inr ⟨_, found, .service inEarlier (by simp [provides]) same⟩
  · exact absurd rfl (first.afterServices s behind api provided)
  · rcases places_compare (provides.symm.trans listed) with inFront | behind | ⟨-, rfl⟩
    · exact .inr ⟨_, found, .listed inFront same⟩
    · exact absurd rfl (first.afterListed api behind)
    · exact .inl found

def gatewayService : Service :=
  ⟨"gateway", .go, ⟨"/g"⟩, ⟨"g"⟩, ⟨none, none, false⟩, ["api/v1/users/all", "users"], [], []⟩

def directoryService : Service :=
  ⟨"directory", .ruby, ⟨"/d"⟩, ⟨"d"⟩, ⟨none, none, false⟩, ["v1/users", "/users/"], [], []⟩

/-- Four names that stand within one another; the shortest is provided twice. -/
def nestedNames : Registry := ⟨⟨"/"⟩, [gatewayService, directoryService]⟩

/-- The name in the middle is reached by itself, and the shortest is where it comes first. -/
theorem resolves_own_name_nested :
    nestedNames.SingleNames ∧ directoryService ∈ nestedNames.services ∧
      "v1/users" ∈ directoryService.provides ∧ normalize "v1/users".toList ≠ [] ∧
      (∃ earlier t later front name back, nestedNames.services = earlier ++ t :: later ∧
        t.provides = front ++ name :: back ∧
          nestedNames.resolve? "v1/users" = some ⟨t.name, name⟩ ∧
            FirstSame "v1/users" earlier front name) ∧
      nestedNames.resolve? "v1/users" = some ⟨"directory", "v1/users"⟩ ∧
      ∃ x, nestedNames.resolve? "/users/" = some x ∧
        Shadows "/users/" [gatewayService] directoryService ["v1/users"] x := by
  have single : nestedNames.SingleNames := by
    unfold SingleNames
    decide
  have listed : directoryService ∈ nestedNames.services := by simp [nestedNames]
  have middle : nestedNames.resolve? "v1/users" = some ⟨"directory", "v1/users"⟩ := by cbv
  have twice : nestedNames.resolve? "/users/" = some ⟨"gateway", "users"⟩ := by cbv
  have long : "v1/users" ∈ directoryService.provides := by simp [directoryService]
  have short : "/users/" ∈ directoryService.provides := by simp [directoryService]
  have named : normalize "v1/users".toList ≠ [] := by decide
  obtain ⟨first, -⟩ := resolves_own_name single listed long named
  obtain ⟨-, places⟩ := resolves_own_name single listed short (by decide)
  refine ⟨single, listed, long, named, first, middle, ?_⟩
  refine (places [gatewayService] [] ["v1/users"] [] rfl rfl).resolve_left fun own => ?_
  simp [twice] at own

-- slashes that follow one another make a name longer than the one it is read as
example : Registry.resolve? ⟨⟨"/"⟩, [{ gatewayService with provides := ["a/b", "a///b"] }]⟩ "a/b" =
    some ⟨"gateway", "a///b"⟩ := by cbv

end Registry
end ServiceMap
