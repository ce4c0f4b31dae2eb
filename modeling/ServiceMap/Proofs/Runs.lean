import ServiceMap.Target

/-! Runs of neighbours. A run is found by looking through the windows of its width, one from each place
that leaves room for it, and so it is found just if it stands somewhere in the list, at either end as
well as between. That relation is kept when the list grows at its ends, it is transitive, and the
segments of a path that a slash cuts in two are those of both parts in a row. -/

namespace ServiceMap.Target

open Text

section Windows

variable {α : Type} {k : Nat} {l w : List α}

/-- The windows of width `k`, from the front to the last place that leaves room for one. -/
def windows (k : Nat) (l : List α) : List (List α) :=
  (List.range (l.length + 1 - k)).map fun i => (l.drop i).take k

/-- The windows of a width are all the runs of that length. -/
theorem mem_windows_iff : w ∈ windows k l ↔ w.length = k ∧ w <:+: l := by
  constructor
  · intro mem
    obtain ⟨i, place, rfl⟩ := List.mem_map.1 mem
    have room : i < l.length + 1 - k := List.mem_range.1 place
    refine ⟨by rw [List.length_take, List.length_drop]; omega, ?_⟩
    exact (List.take_prefix k _).isInfix.trans (List.drop_suffix i l).isInfix
  · rintro ⟨rfl, before, after, rfl⟩
    -- the window that starts behind what stands before the run
    refine List.mem_map.2 ⟨before.length, List.mem_range.2 ?_, ?_⟩
    · simp only [List.length_append]
      omega
    · rw [List.append_assoc, List.drop_left, List.take_left]

example : windows 2 [1, 2, 3] = [[1, 2], [2, 3]] ∧ windows 3 [1, 2] = [] := by decide

end Windows

section Runs

variable {α : Type} [DecidableEq α] {haystack needle inner : List α}

/-- The search looks at the windows that are as wide as the needle. -/
theorem containsRun_eq_any_windows (haystack needle : List α) : containsRun haystack needle =
    (needle ≠ [] && (needle.length ≤ haystack.length &&
      (windows needle.length haystack).any (· = needle))) := by
  rw [Bool.eq_iff_iff, containsRun_iff]
  simp only [Bool.and_eq_true, decide_eq_true_eq, List.any_eq_true]
  refine and_congr_right fun _ => ⟨fun run => ?_, ?_⟩
  · exact ⟨run.length_le, needle, mem_windows_iff.2 ⟨rfl, run⟩, rfl⟩
  · rintro ⟨-, window, mem, rfl⟩
    exact (mem_windows_iff.1 mem).2

theorem containsRun_iff_exists_append : containsRun haystack needle = true ↔
    needle ≠ [] ∧ ∃ before after, haystack = before ++ needle ++ after := by
  rw [containsRun_iff]
  exact and_congr_right fun _ => exists_congr fun _ => exists_congr fun _ => eq_comm

/-- What is added at the ends takes no run away. -/
theorem containsRun_append_append (run : containsRun haystack needle = true)
    (before after : List α) : containsRun (before ++ haystack ++ after) needle = true := by
  obtain ⟨some, there⟩ := containsRun_iff.1 run
  exact containsRun_iff.2 ⟨some, there.trans (List.infix_append before haystack after)⟩

theorem containsRun_trans (run : containsRun haystack needle = true)
    (part : containsRun needle inner = true) : containsRun haystack inner = true := by
  obtain ⟨-, there⟩ := containsRun_iff.1 run
  obtain ⟨some, within⟩ := containsRun_iff.1 part
  exact containsRun_iff.2 ⟨some, within.trans there⟩

end Runs

/-- The search through the windows finds a needle just if it is not empty and stands in the haystack
with something, or nothing, before and after it. What is found is found in any longer haystack, with
all that is found in it, and paths that are joined by a slash have their segments in a row. -/
theorem containsRun_by_windows (haystack needle : List (List Char)) :
    containsRun haystack needle = (needle ≠ [] && (needle.length ≤ haystack.length &&
        (windows needle.length haystack).any (· = needle))) ∧
      (containsRun haystack needle = true ↔
        needle ≠ [] ∧ ∃ before after, haystack = before ++ needle ++ after) ∧
      (containsRun haystack needle = true →
        (∀ before after, containsRun (before ++ haystack ++ after) needle = true) ∧
          ∀ inner, containsRun needle inner = true → containsRun haystack inner = true) ∧
      ∀ x y : String, segments (x ++ "/" ++ y).toList = segments x.toList ++ segments y.toList := by
  refine ⟨containsRun_eq_any_windows haystack needle, containsRun_iff_exists_append,
    fun run => ⟨containsRun_append_append run, fun inner => containsRun_trans run⟩, fun x y => ?_⟩
  have text : (x ++ "/" ++ y).toList = x.toList ++ '/' :: y.toList := by simp
  rw [text, segments_append_slash]

/-- An API of two segments at the end of a target. -/
theorem containsRun_by_windows_detail :
    let target := segments "http://host/api//test-cases/detail".toList
    let api := segments "/test-cases/detail/".toList
    let last := segments "detail".toList
    containsRun target api = true ∧ containsRun api last = true ∧ containsRun target last = true ∧
      (windows api.length target).any (· = api) = true ∧
      (∃ before after, target = before ++ api ++ after) ∧
      containsRun (segments "v1".toList ++ target ++ segments "42/raw".toList) api = true ∧
      segments ("http://host/api/" ++ "/" ++ "test-cases/detail").toList = target := by
  intro target api last
  have found : containsRun target api = true := by decide
  have within : containsRun api last = true := by decide
  obtain ⟨search, place, kept, joined⟩ := containsRun_by_windows target api
  obtain ⟨longer, parts⟩ := kept found
  rw [found] at search
  refine ⟨found, within, parts last within, ?_, (place.1 found).2, longer _ _, ?_⟩
  · exact (Bool.and_eq_true_iff.1 (Bool.and_eq_true_iff.1 search.symm).2).2
  · rw [joined]
    decide

end ServiceMap.Target
