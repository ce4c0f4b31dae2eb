import Mathlib.Data.List.Chain
import Mathlib.Data.List.Nodup
import ServiceMap.Graph.Cycles
import ServiceMap.Proofs.Digraph

/-! What the depth-first search keeps in step, and what that comes to when it ends. The nodes on the
way, followed by the nodes that the search has left, the last one first, form an order that only grows
by insertions. Every arc that has been tried either goes forward in that order or has closed a
loop, and each loop was closed by an arc of its own. -/

namespace ServiceMap

/-- A cycle as the search meets it: a way from `first` to `last`, and an arc back that closes it. -/
structure Loop where
  first : String
  inner : List String
  last : String

namespace Loop

def nodes (l : Loop) : List String := l.first :: (l.inner ++ [l.last])

/-- The arc that closes the loop. -/
def arc (l : Loop) : String × String := (l.last, l.first)

/-- The loop as the search records it. -/
def turned (l : Loop) : List String := leastFirst l.nodes

structure On (l : Loop) (g : Digraph) (order : List String) : Prop where
  closes : g.Leads l.last l.first
  chain : l.nodes.IsChain g.Leads
  sublist : l.nodes.Sublist order

theorem On.mono {l : Loop} {g : Digraph} {order order' : List String} (h : l.On g order)
    (grows : order.Sublist order') : l.On g order' :=
  ⟨h.closes, h.chain, h.sublist.trans grows⟩

end Loop

/-- An arc that goes forward in the order, or that has closed a loop. -/
def Settled (order : List String) (loops : List Loop) (a b : String) : Prop :=
  [a, b].Sublist order ∨ ∃ l ∈ loops, l.arc = (a, b)

theorem Settled.mono {order order' : List String} {loops loops' : List Loop} {a b : String}
    (h : Settled order loops a b) (grows : order.Sublist order') (more : loops ⊆ loops') :
    Settled order' loops' a b := by
  rcases h with forward | ⟨l, hl, arc⟩
  · exact .inl (forward.trans grows)
  · exact .inr ⟨l, more hl, arc⟩

/-- What all searches together come to: an order of the nodes, in which every arc goes forward but
those that close a loop along it. -/
structure Digraph.Traversal (g : Digraph) (order : List String) (loops : List Loop) : Prop where
  order_perm : order.Perm g.nodes
  loops_on : ∀ l ∈ loops, l.On g order
  arcs_nodup : (loops.map Loop.arc).Nodup
  settled : ∀ {a b}, g.Leads a b → Settled order loops a b

def Frame.arcs (f : Frame) : List (String × String) := f.untried.map (Prod.mk f.node)

@[simp] theorem Frame.arcs_nil (node : String) : arcs ⟨node, []⟩ = [] := rfl

@[simp] theorem Frame.arcs_cons (node next : String) (untried : List String) :
    arcs ⟨node, next :: untried⟩ = (node, next) :: arcs ⟨node, untried⟩ := rfl

namespace Search

variable {g : Digraph} {s t : Search} {left : List String} {loops : List Loop} {node next : String}

/-- The arcs that start on the way and are still to be tried. -/
def pending (s : Search) : List (String × String) := s.stack.flatMap Frame.arcs

@[simp] theorem leave_stack {rest : List Frame} : (s.leave node rest).stack = rest := rfl
@[simp] theorem leave_path {rest : List Frame} : (s.leave node rest).path = s.path.dropLast := rfl
@[simp] theorem leave_fresh {rest : List Frame} : (s.leave node rest).fresh = s.fresh := rfl
@[simp] theorem leave_onPath {rest : List Frame} :
    (s.leave node rest).onPath = s.onPath.erase node := rfl
@[simp] theorem enter_stack : (s.enter g node).stack = ⟨node, g.successors node⟩ :: s.stack := rfl
@[simp] theorem enter_path : (s.enter g node).path = s.path ++ [node] := rfl
@[simp] theorem enter_fresh : (s.enter g node).fresh = s.fresh.erase node := rfl
@[simp] theorem enter_onPath : (s.enter g node).onPath = node :: s.onPath := rfl

/-- A node that has no arc left to try leaves none behind. -/
theorem leave_pending {rest : List Frame} (top : s.stack = ⟨node, []⟩ :: rest) :
    (s.leave node rest).pending = s.pending := by
  simp [pending, top]

/-- A node that is entered has all its arcs to be tried. -/
theorem enter_pending (g : Digraph) (s : Search) (node : String) :
    (s.enter g node).pending = (g.successors node).map (Prod.mk node) ++ s.pending := by
  simp [pending, Frame.arcs]

/-- The state of a search that has left the nodes `left`, the last one first, and has met `loops`. -/
structure Traced (g : Digraph) (s : Search) (left : List String) (loops : List Loop) : Prop where
  partition : (s.fresh ++ (s.path ++ left)).Perm g.nodes
  stack_eq : s.stack.map Frame.node = s.path.reverse
  onPath_eq : s.onPath = s.path.reverse
  chain : s.path.IsChain g.Leads
  found_eq : s.found = loops.map Loop.turned
  loops_on : ∀ l ∈ loops, l.On g (s.path ++ left)
  arcs_nodup : (loops.map Loop.arc ++ s.pending).Nodup
  pending_leads : ∀ a b, (a, b) ∈ s.pending → g.Leads a b
  settled : ∀ a ∈ s.path ++ left, ∀ b, g.Leads a b →
    (a, b) ∈ s.pending ∨ Settled (s.path ++ left) loops a b

namespace Traced

theorem nodup (h : s.Traced g left loops) (proper : g.Proper) :
    (s.fresh ++ (s.path ++ left)).Nodup :=
  h.partition.nodup_iff.2 proper.nodes_nodup

theorem path_nodup (h : s.Traced g left loops) (proper : g.Proper) : s.path.Nodup :=
  (List.nodup_append.1 (List.nodup_append.1 (h.nodup proper)).2.1).1

/-- What has been entered is not fresh. -/
theorem not_mem_fresh (h : s.Traced g left loops) (proper : g.Proper) {a : String}
    (ha : a ∈ s.path ++ left) : a ∉ s.fresh := fun fresh =>
  (List.nodup_append.1 (h.nodup proper)).2.2 a fresh a ha rfl

theorem start (g : Digraph) : (start g).Traced g [] [] where
  partition := by simp [Search.start]
  stack_eq := rfl
  onPath_eq := rfl
  chain := .nil
  found_eq := rfl
  loops_on := by simp
  arcs_nodup := by simp [pending, Search.start]
  pending_leads := by simp [pending, Search.start]
  settled := by simp [Search.start]

/-- The innermost node of the way is the one at the top of the stack. -/
theorem path_eq (h : s.Traced g left loops) {f : Frame} {rest : List Frame}
    (top : s.stack = f :: rest) : s.path = (rest.map Frame.node).reverse ++ [f.node] := by
  have := congrArg List.reverse h.stack_eq
  simpa [top] using this.symm

/-- An arc that is still to be tried starts on the way. -/
theorem mem_path_of_pending (h : s.Traced g left loops) {a b : String} (hab : (a, b) ∈ s.pending) :
    a ∈ s.path := by
  obtain ⟨f, hf, -, -, rfl⟩ : ∃ f ∈ s.stack, ∃ c ∈ f.untried, f.node = a := by
    simp only [pending, Frame.arcs, List.mem_flatMap, List.mem_map, Prod.mk.injEq] at hab
    obtain ⟨f, hf, c, hc, eq, -⟩ := hab
    exact ⟨f, hf, c, hc, eq⟩
  have : f.node ∈ s.path.reverse := h.stack_eq ▸ List.mem_map_of_mem hf
  exact List.mem_reverse.1 this

/-- Every arc that is counted starts at a node that has been entered. -/
theorem arc_start_mem (h : s.Traced g left loops) {a b : String}
    (hab : (a, b) ∈ loops.map Loop.arc ++ s.pending) : a ∈ s.path ++ left := by
  rcases List.mem_append.1 hab with closing | untried
  · obtain ⟨l, hl, arc⟩ := List.mem_map.1 closing
    obtain ⟨rfl, rfl⟩ := Prod.mk.inj arc
    exact (h.loops_on l hl).sublist.subset (by simp [Loop.nodes])
  · exact List.mem_append_left _ (h.mem_path_of_pending untried)

/-- Leaving a node moves it from the end of the way to the start of what is left. -/
theorem leave (h : s.Traced g left loops) {rest : List Frame} (top : s.stack = ⟨node, []⟩ :: rest) :
    (s.leave node rest).Traced g (node :: left) loops := by
  have path := h.path_eq top
  have order : s.path.dropLast ++ node :: left = s.path ++ left := by simp [path]
  have pending : (s.leave node rest).pending = s.pending := leave_pending top
  constructor
  case partition => simpa [order] using h.partition
  case stack_eq => simp [path]
  case onPath_eq => simp [h.onPath_eq, path]
  case chain => exact h.chain.dropLast
  case found_eq => exact h.found_eq
  case loops_on => simpa [order] using h.loops_on
  case arcs_nodup => simpa [pending] using h.arcs_nodup
  case pending_leads => simpa [pending] using h.pending_leads
  case settled => simpa [order, pending] using h.settled

/-- Entering a node puts it between the way and what is left, with all its arcs to be tried. -/
theorem enter (h : s.Traced g left loops) (proper : g.Proper) (fresh : node ∈ s.fresh)
    (follows : ∀ a ∈ s.path.getLast?, g.Leads a node) : (s.enter g node).Traced g left loops := by
  have grows : (s.path ++ left).Sublist (s.path ++ [node] ++ left) :=
    (List.sublist_append_left _ _).append (List.Sublist.refl _)
  have pending : (s.enter g node).pending = (g.successors node).map (Prod.mk node) ++ s.pending :=
    enter_pending g s node
  have new : node ∉ s.path ++ left := fun mem => h.not_mem_fresh proper mem fresh
  constructor
  case partition =>
    have inserted : (s.path ++ [node] ++ left).Perm (node :: (s.path ++ left)) := by
      simp [List.perm_middle]
    calc s.fresh.erase node ++ (s.path ++ [node] ++ left)
      _ |>.Perm (s.fresh.erase node ++ node :: (s.path ++ left)) := inserted.append_left _
      _ |>.Perm (node :: s.fresh.erase node ++ (s.path ++ left)) := List.perm_middle
      _ |>.Perm (s.fresh ++ (s.path ++ left)) := (List.perm_cons_erase fresh).symm.append_right _
      _ |>.Perm g.nodes := h.partition
  case stack_eq => simp [h.stack_eq]
  case onPath_eq => simp [h.onPath_eq]
  case chain =>
    refine h.chain.append (.singleton _) fun a ha b hb => ?_
    obtain rfl : node = b := by simpa using hb
    exact follows a ha
  case found_eq => exact h.found_eq
  case loops_on => exact fun l hl => (h.loops_on l hl).mono grows
  case arcs_nodup =>
    have own : ((g.successors node).map (Prod.mk node)).Nodup :=
      (proper.successors_nodup node).map fun _ _ eq => (Prod.mk.inj eq).2
    rw [pending, (List.perm_append_comm_assoc ..).nodup_iff, List.nodup_append]
    refine ⟨own, h.arcs_nodup, ?_⟩
    rintro ⟨a, b⟩ hab arc harc rfl
    obtain ⟨_, -, rfl, rfl⟩ : ∃ c ∈ g.successors node, node = a ∧ c = b := by simpa using hab
    exact new (h.arc_start_mem harc)
  case pending_leads =>
    intro a b hab
    rw [pending, List.mem_append] at hab
    rcases hab with new | old
    · obtain ⟨_, leads, rfl, rfl⟩ : ∃ c ∈ g.successors node, node = a ∧ c = b := by simpa using new
      exact leads
    · exact h.pending_leads a b old
  case settled =>
    intro a ha b leads
    rw [pending, List.mem_append]
    by_cases eq : a = node
    · subst eq
      exact .inl (.inl (List.mem_map_of_mem leads))
    · have ha : a ∈ s.path ++ left := by simpa [eq] using ha
      rcases h.settled a ha b leads with untried | settled
      · exact .inl (.inr untried)
      · exact .inr (settled.mono grows (List.Subset.refl _))

/-- An arc to a node that comes later in the order has only to be ticked off. -/
theorem pass (h : s.Traced g left loops) (above : List Frame) {rest : List Frame}
    {untried : List String} (at_ : s.stack = above ++ ⟨node, next :: untried⟩ :: rest)
    (forward : [node, next].Sublist (s.path ++ left)) :
    { s with stack := above ++ Frame.mk node untried :: rest }.Traced g left loops := by
  let before := above.flatMap Frame.arcs
  let after := Frame.arcs ⟨node, untried⟩ ++ rest.flatMap Frame.arcs
  have all : s.pending = before ++ (node, next) :: after := by simp [pending, at_, before, after]
  have fewer : { s with stack := above ++ Frame.mk node untried :: rest }.pending = before ++ after := by
    simp [pending, before, after]
  have sub : (before ++ after).Sublist s.pending :=
    all ▸ (List.Sublist.refl _).append (List.sublist_cons_self _ _)
  constructor
  case partition => exact h.partition
  case stack_eq => simpa [at_] using h.stack_eq
  case onPath_eq => exact h.onPath_eq
  case chain => exact h.chain
  case found_eq => exact h.found_eq
  case loops_on => exact h.loops_on
  case arcs_nodup => exact fewer ▸ h.arcs_nodup.sublist ((List.Sublist.refl _).append sub)
  case pending_leads => exact fun a b hab => h.pending_leads a b (sub.subset (fewer ▸ hab))
  case settled =>
    intro a ha b leads
    rw [fewer]
    rcases h.settled a ha b leads with untried | settled
    · rw [all, (List.perm_middle).mem_iff, List.mem_cons] at untried
      rcases untried with eq | untried
      · obtain ⟨rfl, rfl⟩ := Prod.mk.inj eq
        exact .inr (.inl forward)
      · exact .inl untried
    · exact .inr settled

/-- The way from a node on it to its innermost node. -/
theorem path_from {path outer : List String} (back : next ∈ path) (eq : path = outer ++ [node])
    (ne : node ≠ next) : ∃ inner, path.dropWhile (· ≠ next) = next :: (inner ++ [node]) := by
  subst eq
  induction outer with
  | nil => simp [ne.symm] at back
  | cons a outer ih =>
    by_cases eq : a = next
    · exact ⟨outer, by simp [eq]⟩
    · obtain ⟨inner, way⟩ := ih (by simpa [Ne.symm eq] using back)
      exact ⟨inner, by simpa [eq] using way⟩

/-- An arc back to a node on the way closes a loop. -/
theorem close (h : s.Traced g left loops) (proper : g.Proper) {rest : List Frame}
    {untried : List String} (top : s.stack = ⟨node, next :: untried⟩ :: rest)
    (back : next ∈ s.path) :
    ∃ l, { s with
      stack := ⟨node, untried⟩ :: rest
      found := s.found ++ [leastFirst (s.path.dropWhile (· ≠ next))] }.Traced g left
        (loops ++ [l]) := by
  have leads : g.Leads node next := h.pending_leads _ _ (by simp [pending, top])
  obtain ⟨inner, way⟩ := path_from back (h.path_eq top) (proper.leads_ne leads)
  have onWay : next :: (inner ++ [node]) <:+ s.path := way ▸ List.dropWhile_suffix _
  let after := Frame.arcs ⟨node, untried⟩ ++ rest.flatMap Frame.arcs
  have all : s.pending = (node, next) :: after := by simp [pending, top, after]
  refine ⟨⟨next, inner, node⟩, ?_⟩
  rw [way]
  constructor
  case partition => exact h.partition
  case stack_eq => simpa [top] using h.stack_eq
  case onPath_eq => exact h.onPath_eq
  case chain => exact h.chain
  case found_eq => simp [h.found_eq, Loop.turned, Loop.nodes]
  case loops_on =>
    intro l mem
    rcases List.mem_append.1 mem with mem | mem
    · exact h.loops_on l mem
    · obtain rfl := List.mem_singleton.1 mem
      exact ⟨leads, h.chain.suffix onWay, onWay.sublist.trans (List.sublist_append_left _ _)⟩
  case arcs_nodup =>
    -- the arc that is tried goes over from those to be tried to those that close a loop
    have := h.arcs_nodup
    rw [all] at this
    simpa [pending, Loop.arc] using this
  case pending_leads =>
    exact fun a b hab => h.pending_leads a b (all ▸ List.mem_cons_of_mem _ hab)
  case settled =>
    intro a ha b leads
    rcases h.settled a ha b leads with untried | settled
    · rw [all, List.mem_cons] at untried
      rcases untried with eq | untried
      · exact .inr (.inr ⟨⟨next, inner, node⟩, List.mem_append_right _ List.mem_cons_self, eq.symm⟩)
      · exact .inl untried
    · exact .inr (settled.mono (List.Sublist.refl _) (List.subset_append_left _ _))

theorem step (h : s.Traced g left loops) (proper : g.Proper) (move : s.Move g t) :
    ∃ left loops, t.Traced g left loops := by
  have leads : ∀ {node next : String} {untried : List String} {rest : List Frame},
      s.stack = ⟨node, next :: untried⟩ :: rest → g.Leads node next := fun top =>
    h.pending_leads _ _ (by simp [pending, top])
  have onWay : ∀ {f : Frame} {rest : List Frame}, s.stack = f :: rest → [f.node].Sublist s.path :=
    fun top => List.singleton_sublist.2 (by simp [h.path_eq top])
  cases move with
  | leave top => exact ⟨_, _, h.leave top⟩
  | close top back =>
    obtain ⟨l, closed⟩ := h.close proper top (by simpa [h.onPath_eq] using back)
    exact ⟨_, _, closed⟩
  | @enter node next untried rest top away fresh =>
    have entered := h.enter proper fresh (by simp [h.path_eq top, leads top])
    have forward : [node, next].Sublist (s.path ++ [next] ++ left) :=
      ((onWay top).append (List.Sublist.refl [next])).trans (List.sublist_append_left _ left)
    have stack : (s.enter g next).stack =
        [⟨next, g.successors next⟩] ++ ⟨node, next :: untried⟩ :: rest := by simp [top]
    exact ⟨_, _, entered.pass _ stack forward⟩
  | @pass node next untried rest top away visited =>
    have behind : next ∈ left := by
      have := h.partition.mem_iff.2 (proper.leads_mem (leads top)).2
      simpa [visited, mt (h.onPath_eq ▸ List.mem_reverse.2) away] using this
    exact ⟨_, _, h.pass [] top ((onWay top).append (List.singleton_sublist.2 behind))⟩

end Traced

theorem stack_nil_of_step? (h : s.step? g = none) : s.stack = [] := by
  unfold step? at h
  split at h
  · assumption
  · cases h
  · dsimp only at h
    split at h
    · cases h
    · split at h <;> cases h

/-- A search carried on to its end has left every node of its way. -/
theorem run_stack (g : Digraph) (s : Search) : (s.run g).stack = [] := by
  fun_induction run g s with
  | case1 s ended => exact stack_nil_of_step? ended
  | case2 s t _ ih => exact ih

theorem run_traced (proper : g.Proper) (h : s.Traced g left loops) :
    ∃ left loops, (s.run g).Traced g left loops := by
  fun_induction run g s generalizing left loops with
  | case1 s ended => exact ⟨left, loops, h⟩
  | case2 s t ht ih =>
    obtain ⟨left, loops, h⟩ := h.step proper (move_of_step? ht)
    exact ih h

/-- A step visits no node a second time. -/
theorem Move.fresh (move : s.Move g t) : t.fresh.Sublist s.fresh := by
  cases move with
  | leave _ => exact List.Sublist.refl _
  | close _ _ => exact List.Sublist.refl _
  | enter _ _ _ => exact List.erase_sublist
  | pass _ _ _ => exact List.Sublist.refl _

theorem run_fresh (g : Digraph) (s : Search) : (s.run g).fresh.Sublist s.fresh := by
  fun_induction run g s with
  | case1 s ended => exact List.Sublist.refl _
  | case2 s t ht ih => exact ih.trans (move_of_step? ht).fresh

/-- Between two searches no node is on the way. -/
structure Resting (g : Digraph) (s : Search) : Prop where
  stack_nil : s.stack = []
  traced : ∃ left loops, s.Traced g left loops

theorem Traced.path_nil (h : s.Traced g left loops) (rest : s.stack = []) : s.path = [] := by
  have := h.stack_eq
  simpa [rest] using this.symm

theorem Resting.visit (h : s.Resting g) (proper : g.Proper) (node : String) :
    (s.visit g node).Resting g := by
  unfold Search.visit
  split
  · next fresh =>
    obtain ⟨left, loops, traced⟩ := h.traced
    have entered := traced.enter proper fresh (by simp [traced.path_nil h.stack_nil])
    exact ⟨run_stack g _, run_traced proper entered⟩
  · exact h

theorem visit_fresh (g : Digraph) (s : Search) (node : String) :
    (s.visit g node).fresh.Sublist s.fresh := by
  unfold Search.visit
  split
  · exact (run_fresh g _).trans List.erase_sublist
  · exact List.Sublist.refl _

theorem Resting.not_mem_visit_fresh (h : s.Resting g) (proper : g.Proper) (node : String) :
    node ∉ (s.visit g node).fresh := by
  unfold Search.visit
  split
  · obtain ⟨left, loops, traced⟩ := h.traced
    have nodup : s.fresh.Nodup := (List.nodup_append.1 (traced.nodup proper)).1
    exact fun mem => nodup.not_mem_erase ((run_fresh g _).subset mem)
  · assumption

/-- The searches from some nodes leave none of these unvisited. -/
theorem Resting.visits (h : s.Resting g) (proper : g.Proper) (nodes : List String) :
    (nodes.foldl (Search.visit g) s).Resting g ∧
      (nodes.foldl (Search.visit g) s).fresh.Sublist s.fresh ∧
        ∀ a ∈ nodes, a ∉ (nodes.foldl (Search.visit g) s).fresh := by
  induction nodes generalizing s with
  | nil => exact ⟨h, List.Sublist.refl _, by simp⟩
  | cons node nodes ih =>
    obtain ⟨resting, fewer, done⟩ := ih (h.visit proper node)
    refine ⟨resting, fewer.trans (visit_fresh g s node), fun a ha => ?_⟩
    rcases List.mem_cons.1 ha with rfl | ha
    · exact fun mem => h.not_mem_visit_fresh proper a (fewer.subset mem)
    · exact done a ha

/-- All searches together leave no node on the way and none unvisited. -/
theorem whole_resting (proper : g.Proper) : (whole g).Resting g ∧ (whole g).fresh = [] := by
  have first : (start g).Resting g := ⟨rfl, _, _, .start g⟩
  obtain ⟨resting, fewer, done⟩ := first.visits proper g.nodes
  exact ⟨resting, List.eq_nil_iff_forall_not_mem.2 fun a ha => done a (fewer.subset ha) ha⟩

theorem whole_traversal (proper : g.Proper) :
    ∃ order loops, g.Traversal order loops ∧ (whole g).found = loops.map Loop.turned := by
  obtain ⟨resting, all⟩ := whole_resting proper
  obtain ⟨order, loops, traced⟩ := resting.traced
  have path : (whole g).path = [] := traced.path_nil resting.stack_nil
  have pending : (whole g).pending = [] := by simp [Search.pending, resting.stack_nil]
  have partition : order.Perm g.nodes := by simpa [all, path] using traced.partition
  refine ⟨order, loops, ⟨partition, ?_, ?_, ?_⟩, traced.found_eq⟩
  · simpa [path] using traced.loops_on
  · simpa [pending] using traced.arcs_nodup
  · intro a b leads
    have entered : a ∈ order := partition.mem_iff.2 (proper.leads_mem leads).1
    simpa [path, pending] using traced.settled a (by simpa [path] using entered) b leads

end Search
end ServiceMap
