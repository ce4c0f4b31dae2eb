import ServiceMap.Proofs.Cycles

/-! The two loops of the depth-first search, turn by turn. At every turn the stack, the way and the nodes
marked as on the way are in step. What has been done up to then accounts for all nodes and successors: a
node that was pushed is on the way or was popped, and a successor of such a node was looked at or is still
to be tried. So the loops end after as many turns as that takes, with every node pushed and popped once and
every successor looked at once. -/

namespace ServiceMap

open scoped List

/-- What the search does to its stack. -/
inductive Deed where
  | push (node : String)
  /-- Takes up the next successor of a node. -/
  | look (node next : String)
  | pop (node : String)
  deriving DecidableEq, Repr

namespace Deed

/-- The nodes on the stack afterwards, the innermost first. -/
@[simp] def act (stack : List String) : Deed → List String
  | push node => node :: stack
  | look _ _ => stack
  | pop _ => stack.tail

@[simp] def pushed? : Deed → Option String
  | push node => some node
  | _ => none

@[simp] def looked? : Deed → Option (String × String)
  | look node next => some (node, next)
  | _ => none

@[simp] def popped? : Deed → Option String
  | pop node => some node
  | _ => none

/-- The nodes that are pushed. -/
def pushes (done : List Deed) : List String := done.filterMap pushed?

/-- The successors that are looked at, each with the node that leads to it. -/
def looks (done : List Deed) : List (String × String) := done.filterMap looked?

/-- The nodes that are popped. -/
def pops (done : List Deed) : List String := done.filterMap popped?

@[simp] theorem pushes_nil : pushes [] = [] := rfl
@[simp] theorem looks_nil : looks [] = [] := rfl
@[simp] theorem pops_nil : pops [] = [] := rfl

@[simp] theorem pushes_append (done now : List Deed) : pushes (done ++ now) = pushes done ++ pushes now := by
  simp [pushes]

@[simp] theorem looks_append (done now : List Deed) : looks (done ++ now) = looks done ++ looks now := by
  simp [looks]

@[simp] theorem pops_append (done now : List Deed) : pops (done ++ now) = pops done ++ pops now := by
  simp [pops]

@[simp] theorem pushes_singleton (d : Deed) : pushes [d] = d.pushed?.toList := by
  cases d <;> rfl

@[simp] theorem looks_singleton (d : Deed) : looks [d] = d.looked?.toList := by
  cases d <;> rfl

@[simp] theorem pops_singleton (d : Deed) : pops [d] = d.popped?.toList := by
  cases d <;> rfl

/-- What is picked from a deed of one kind only is counted with that deed. -/
theorem count_filterMap {α : Type} [BEq α] [LawfulBEq α] {pick : Deed → Option α} {a : α} {d : Deed}
    (only : ∀ e, pick e = some a ↔ e = d) (done : List Deed) :
    (done.filterMap pick).count a = done.count d := by
  rw [List.count_filterMap]
  exact List.countP_congr fun e _ => by simp [only]

theorem count_pushes (done : List Deed) (a : String) : (pushes done).count a = done.count (.push a) :=
  count_filterMap (fun e => by cases e <;> simp) done

theorem count_looks (done : List Deed) (a b : String) :
    (looks done).count (a, b) = done.count (.look a b) :=
  count_filterMap (fun e => by cases e <;> simp) done

theorem count_pops (done : List Deed) (a : String) : (pops done).count a = done.count (.pop a) :=
  count_filterMap (fun e => by cases e <;> simp) done

end Deed

open Deed (pushes looks pops)

namespace Digraph

variable {g : Digraph}

/-- The successors of a node, each with the node that leads to it. -/
def entries (g : Digraph) (node : String) : List (String × String) :=
  (g.successors node).map (Prod.mk node)

theorem entries_eq (g : Digraph) (node : String) : g.entries node =
    (g.arcs.filter fun a => a.source = node).map fun a => (a.source, a.target) := by
  rw [entries, successors, List.map_map]
  refine List.map_congr_left fun a ha => ?_
  have source : a.source = node := by simpa using (List.mem_filter.1 ha).2
  simp [source]

/-- The successors of all nodes are the arcs. -/
theorem entries_perm (proper : g.Proper) :
    g.nodes.flatMap g.entries ~ g.arcs.map fun a => (a.source, a.target) := by
  have sources : ∀ a ∈ g.arcs, a.source ∈ g.nodes := fun a ha =>
    (proper.leads_mem (mem_successors.2 ⟨a, ha, rfl, rfl⟩)).1
  have groups := (flatMap_filter_perm Arc.source proper.nodes_nodup sources).map
    fun a => (a.source, a.target)
  rwa [List.map_flatMap, ← funext (entries_eq g)] at groups

theorem entries_nodup (proper : g.Proper) : (g.nodes.flatMap g.entries).Nodup := by
  refine List.nodup_flatMap.2 ⟨fun a _ => ?_, proper.nodes_nodup.imp fun {a b} ne => ?_⟩
  · exact (proper.successors_nodup a).map (Prod.mk_right_injective a)
  · intro arc ha hb
    obtain ⟨_, _, rfl⟩ := List.mem_map.1 ha
    obtain ⟨_, _, eq⟩ := List.mem_map.1 hb
    exact ne (congrArg Prod.fst eq).symm

theorem mem_entries (proper : g.Proper) {a b : String} :
    (a, b) ∈ g.nodes.flatMap g.entries ↔ b ∈ g.successors a := by
  have starts : b ∈ g.successors a → a ∈ g.nodes := fun leads => (proper.leads_mem leads).1
  simp only [entries, List.mem_flatMap, List.mem_map, Prod.mk.injEq]
  grind

end Digraph

namespace Search

variable {g : Digraph} {s t : Search} {node next : String} {untried : List String} {rest : List Frame}

/-- What the next step does. A successor that is taken up is pushed when it is neither on the way nor
visited. -/
def deeds (s : Search) : List Deed :=
  match s.stack with
  | [] => []
  | ⟨node, []⟩ :: _ => [.pop node]
  | ⟨node, next :: _⟩ :: _ =>
    if next ∉ s.onPath ∧ next ∈ s.fresh then [.look node next, .push next] else [.look node next]

theorem deeds_of_nil (top : s.stack = ⟨node, []⟩ :: rest) : s.deeds = [.pop node] := by
  simp [deeds, top]

theorem deeds_of_known (top : s.stack = ⟨node, next :: untried⟩ :: rest)
    (known : next ∈ s.onPath ∨ next ∉ s.fresh) : s.deeds = [.look node next] := by
  have stays : ¬ (next ∉ s.onPath ∧ next ∈ s.fresh) := by tauto
  simp only [deeds, top, if_neg stays]

theorem deeds_of_new (top : s.stack = ⟨node, next :: untried⟩ :: rest) (away : next ∉ s.onPath)
    (fresh : next ∈ s.fresh) : s.deeds = [.look node next, .push next] := by
  simp only [deeds, top, if_pos (And.intro away fresh)]

/-- A step takes up one successor or pops one node. -/
theorem length_deeds (move : s.Move g t) : (looks s.deeds).length + (pops s.deeds).length = 1 := by
  cases move with
  | leave top => simp [deeds_of_nil top]
  | close top back => simp [deeds_of_known top (.inl back)]
  | enter top away fresh => rw [deeds_of_new top away fresh]; rfl
  | pass top _ visited => simp [deeds_of_known top (.inr visited)]

/-- Where the two loops are: the nodes from which a search may still start, and the search. -/
structure Stage where
  todo : List String
  search : Search

/-- One turn, and what is done in it: a step of the search under way, or else the start of one from the
next node, unless that has been visited. -/
def Stage.turn? (g : Digraph) (p : Stage) : Option (List Deed × Stage) :=
  match p.search.step? g with
  | some s => some (p.search.deeds, ⟨p.todo, s⟩)
  | none =>
    match p.todo with
    | [] => none
    | node :: todo =>
      if node ∈ p.search.fresh then some ([.push node], ⟨todo, p.search.enter g node⟩)
      else some ([], ⟨todo, p.search⟩)

/-- Where the loops are after a number of turns, and what has been done in these. -/
inductive Reached (g : Digraph) : Nat → List Deed → Stage → Prop where
  | start : Reached g 0 [] ⟨g.nodes, .start g⟩
  | turn {n : Nat} {done now : List Deed} {p q : Stage} : Reached g n done p →
      p.turn? g = some (now, q) → Reached g (n + 1) (done ++ now) q

/-- What a turn can do. -/
inductive Turned (g : Digraph) : Stage → List Deed → Stage → Prop where
  | step {todo : List String} {s t : Search} (move : s.Move g t) : Turned g ⟨todo, s⟩ s.deeds ⟨todo, t⟩
  | start {node : String} {todo : List String} {s : Search} (idle : s.stack = []) (fresh : node ∈ s.fresh) :
      Turned g ⟨node :: todo, s⟩ [.push node] ⟨todo, s.enter g node⟩
  | skip {node : String} {todo : List String} {s : Search} (idle : s.stack = [])
      (visited : node ∉ s.fresh) : Turned g ⟨node :: todo, s⟩ [] ⟨todo, s⟩

variable {p q : Stage} {n m : Nat} {done more now : List Deed} {todo : List String}

theorem turned_of_turn? (h : p.turn? g = some (now, q)) : Turned g p now q := by
  obtain ⟨todo, s⟩ := p
  unfold Stage.turn? at h
  split at h
  · next t ht =>
    cases h
    exact .step (move_of_step? ht)
  · next ended =>
    have idle := stack_nil_of_step? ended
    split at h
    · cases h
    · next node todo ahead =>
      cases ahead
      split at h
      · next fresh =>
        cases h
        exact .start idle fresh
      · next visited =>
        cases h
        exact .skip idle visited

/-! ## In step -/

theorem Reached.traced (proper : g.Proper) (h : Reached g n done p) :
    ∃ left loops, p.search.Traced g left loops := by
  induction h with
  | start => exact ⟨_, _, .start g⟩
  | turn _ next ih =>
    obtain ⟨left, loops, traced⟩ := ih
    cases turned_of_turn? next with
    | step move => exact traced.step proper move
    | @start node todo s idle fresh =>
      have nothing : s.path = [] := traced.path_nil idle
      exact ⟨_, _, traced.enter proper fresh (by simp [nothing])⟩
    | skip _ _ => exact ⟨_, _, traced⟩

/-- The stack, the way and the marks agree, and what is on the way has been visited. -/
structure InStep (edges : List Edge) (s : Search) : Prop where
  stack_eq : s.stack.map Frame.node = s.path.reverse
  path_nodup : s.path.Nodup
  path_chain : s.path.IsChain (Depends edges)
  mem_onPath : ∀ a, a ∈ s.onPath ↔ a ∈ s.path
  /-- A mark is found on the way, and what follows from there on is what the search records. -/
  place : ∀ a ∈ s.onPath, ∃ i, s.path.idxOf? a = some i ∧ s.path.drop i = s.path.dropWhile (· ≠ a)
  visited : ∀ a ∈ s.path, a ∉ s.fresh

theorem exists_place {path : List String} {a : String} (h : a ∈ path) :
    ∃ i, path.idxOf? a = some i ∧ path.drop i = path.dropWhile (· ≠ a) := by
  induction path with
  | nil => cases h
  | cons b path ih =>
    by_cases same : b = a
    · exact ⟨0, by simp [List.idxOf?_cons, same], by simp [same]⟩
    · obtain ⟨i, found, drop⟩ := ih (by simpa [Ne.symm same] using h)
      exact ⟨i + 1, by simp [List.idxOf?_cons, same, found], by simpa [same] using drop⟩

theorem Traced.inStep {edges : List Edge} {left : List String} {loops : List Loop}
    (h : s.Traced (.ofEdges edges) left loops) : s.InStep edges := by
  have proper := Digraph.ofEdges_proper edges
  have onPath : ∀ a, a ∈ s.onPath ↔ a ∈ s.path := fun a => by rw [h.onPath_eq, List.mem_reverse]
  constructor
  case stack_eq => exact h.stack_eq
  case path_nodup => exact h.path_nodup proper
  case path_chain => exact h.chain.imp fun _ _ => Digraph.leads_ofEdges.1
  case mem_onPath => exact onPath
  case place => exact fun a ha => exists_place ((onPath a).1 ha)
  case visited => exact fun a ha => h.not_mem_fresh proper (List.mem_append_left _ ha)

/-! ## What has been done -/

/-- What has been done accounts for where the search is. -/
structure Accounts (g : Digraph) (done : List Deed) (s : Search) : Prop where
  stack_eq : s.stack.map Frame.node = done.foldl Deed.act []
  /-- A node that was pushed is on the way, or was popped. -/
  pushed : pushes done ~ s.path ++ pops done
  /-- A node that was not is still to be visited. -/
  nodes : s.fresh ++ pushes done ~ g.nodes
  /-- A successor of a node that was pushed was looked at, or is still to be tried. -/
  looked : looks done ++ s.pending ~ (pushes done).flatMap g.entries

namespace Accounts

theorem start (g : Digraph) : Accounts g [] (start g) where
  stack_eq := rfl
  pushed := .refl _
  nodes := by simp [pushes, Search.start]
  looked := by simp [pushes, looks, pending, Search.start]

theorem push (h : Accounts g done s) (fresh : node ∈ s.fresh) :
    Accounts g (done ++ [.push node]) (s.enter g node) where
  stack_eq := by simp [h.stack_eq]
  pushed :=
    calc pushes (done ++ [.push node])
      _ = pushes done ++ [node] := by simp
      _ ~ s.path ++ pops done ++ [node] := h.pushed.append_right _
      _ = s.path ++ (pops done ++ [node]) := List.append_assoc ..
      _ ~ s.path ++ ([node] ++ pops done) := List.perm_append_comm.append_left s.path
      _ = (s.enter g node).path ++ pops (done ++ [.push node]) := by simp
  nodes :=
    calc (s.enter g node).fresh ++ pushes (done ++ [.push node])
      _ = s.fresh.erase node ++ (pushes done ++ [node]) := by simp
      _ ~ s.fresh.erase node ++ node :: pushes done := (List.perm_append_singleton ..).append_left _
      _ ~ node :: s.fresh.erase node ++ pushes done := List.perm_middle
      _ ~ s.fresh ++ pushes done := (List.perm_cons_erase fresh).symm.append_right _
      _ ~ g.nodes := h.nodes
  looked :=
    calc looks (done ++ [.push node]) ++ (s.enter g node).pending
      _ = looks done ++ (g.entries node ++ s.pending) := by rw [enter_pending]; simp [Digraph.entries]
      _ ~ looks done ++ (s.pending ++ g.entries node) := List.perm_append_comm.append_left _
      _ = looks done ++ s.pending ++ g.entries node := by simp
      _ ~ (pushes done).flatMap g.entries ++ g.entries node := h.looked.append_right _
      _ = (pushes (done ++ [.push node])).flatMap g.entries := by simp

theorem look (h : Accounts g done s) (top : s.stack = ⟨node, next :: untried⟩ :: rest)
    (found : List (List String)) : Accounts g (done ++ [.look node next])
      { s with stack := ⟨node, untried⟩ :: rest, found := found } where
  stack_eq := by simpa [top] using h.stack_eq
  pushed := by simpa using h.pushed
  nodes := by simpa using h.nodes
  looked := by simpa [pending, top] using h.looked

theorem pop (h : Accounts g done s) (top : s.stack = ⟨node, []⟩ :: rest)
    (ends : s.path = (rest.map Frame.node).reverse ++ [node]) :
    Accounts g (done ++ [.pop node]) (s.leave node rest) where
  stack_eq := by simp [← h.stack_eq, top]
  pushed :=
    calc pushes (done ++ [.pop node])
      _ = pushes done := by simp
      _ ~ s.path ++ pops done := h.pushed
      _ = (rest.map Frame.node).reverse ++ ([node] ++ pops done) := by simp [ends]
      _ ~ (rest.map Frame.node).reverse ++ (pops done ++ [node]) := List.perm_append_comm.append_left _
      _ = (s.leave node rest).path ++ pops (done ++ [.pop node]) := by simp [ends]
  nodes := by simpa using h.nodes
  looked := by simpa [leave_pending top] using h.looked

theorem step (h : Accounts g done s) {left : List String} {loops : List Loop}
    (traced : s.Traced g left loops) (move : s.Move g t) : Accounts g (done ++ s.deeds) t := by
  cases move with
  | leave top =>
    rw [deeds_of_nil top]
    exact h.pop top (traced.path_eq top)
  | close top back =>
    rw [deeds_of_known top (.inl back)]
    exact h.look top _
  | enter top away fresh =>
    rw [deeds_of_new top away fresh, List.append_cons]
    exact (h.look top s.found).push fresh
  | pass top _ visited =>
    rw [deeds_of_known top (.inr visited)]
    exact h.look top s.found

end Accounts

theorem Reached.accounts (proper : g.Proper) (h : Reached g n done p) : Accounts g done p.search := by
  induction h with
  | start => exact .start g
  | turn before next ih =>
    obtain ⟨_, _, traced⟩ := before.traced proper
    cases turned_of_turn? next with
    | step move => exact ih.step traced move
    | start _ fresh => exact ih.push fresh
    | skip _ _ => simpa using ih

/-! ## The end -/

/-- A turn takes up one successor, pops one node or goes on to the next node to start from. -/
theorem Turned.counts (turned : Turned g p now q) :
    p.todo.length + (looks now).length + (pops now).length = q.todo.length + 1 := by
  cases turned with
  | step move =>
    have one := length_deeds move
    dsimp only
    omega
  | start _ _ => rfl
  | skip _ _ => rfl

theorem Reached.turns_eq (h : Reached g n done p) :
    n + p.todo.length = g.nodes.length + (looks done).length + (pops done).length := by
  induction h with
  | start => simp
  | turn _ next ih =>
    have counts := (turned_of_turn? next).counts
    rw [Deed.looks_append, Deed.pops_append, List.length_append, List.length_append]
    omega

/-- There is but one way on. -/
theorem Reached.unique (h : Reached g n done p) (k : Reached g n more q) : done = more ∧ p = q := by
  induction h generalizing more q with
  | start =>
    cases k
    exact ⟨rfl, rfl⟩
  | turn _ next ih =>
    cases k with
    | turn k other =>
      obtain ⟨rfl, rfl⟩ := ih k
      cases next.symm.trans other
      exact ⟨rfl, rfl⟩

/-- Nothing comes after a stage from which there is no turn. -/
theorem Reached.le_of_stop (h : Reached g n done p) (stop : p.turn? g = none)
    (k : Reached g m more q) : m ≤ n := by
  induction k with
  | start => exact Nat.zero_le n
  | @turn m more now q r k next ih =>
    -- the turn before was not the `n`-th, as none would have come after it
    have before : m ≠ n := by
      rintro rfl
      obtain ⟨-, rfl⟩ := h.unique k
      rw [stop] at next
      cases next
    omega

theorem step?_of_stack_nil (idle : s.stack = []) : s.step? g = none := by
  simp [step?, idle]

/-- The inner loop takes the turns of one search. -/
theorem Reached.run (h : Reached g n done ⟨todo, s⟩) :
    ∃ n done, Reached g n done ⟨todo, s.run g⟩ := by
  fun_induction Search.run g s generalizing n done with
  | case1 s _ => exact ⟨n, done, h⟩
  | case2 s t step ih =>
    have turn : Stage.turn? g ⟨todo, s⟩ = some (s.deeds, ⟨todo, t⟩) := by
      simp [Stage.turn?, step]
    exact ih (h.turn turn)

/-- The outer loop takes the turns of the searches from all nodes that are left. -/
theorem Reached.visits (h : Reached g n done ⟨todo, s⟩) (idle : s.stack = []) :
    ∃ n done, Reached g n done ⟨[], todo.foldl (visit g) s⟩ := by
  induction todo generalizing n done s with
  | nil => exact ⟨n, done, h⟩
  | cons node todo ih =>
    rw [List.foldl_cons]
    by_cases fresh : node ∈ s.fresh
    · have turn : Stage.turn? g ⟨node :: todo, s⟩ = some ([.push node], ⟨todo, s.enter g node⟩) := by
        simp [Stage.turn?, step?_of_stack_nil idle, fresh]
      obtain ⟨n, done, h⟩ := (h.turn turn).run
      rw [visit, if_pos fresh]
      exact ih h (run_stack g _)
    · have turn : Stage.turn? g ⟨node :: todo, s⟩ = some ([], ⟨todo, s⟩) := by
        simp [Stage.turn?, step?_of_stack_nil idle, fresh]
      rw [visit, if_neg fresh]
      exact ih (h.turn turn) idle

/-- Where the loops end. -/
structure Ended (s : Search) : Prop where
  stack_nil : s.stack = []
  path_nil : s.path = []
  onPath_nil : s.onPath = []
  fresh_nil : s.fresh = []

theorem whole_ended (proper : g.Proper) : (whole g).Ended := by
  obtain ⟨resting, all⟩ := whole_resting proper
  obtain ⟨_, _, traced⟩ := resting.traced
  have path := traced.path_nil resting.stack_nil
  exact ⟨resting.stack_nil, path, by simp [traced.onPath_eq, path], all⟩

theorem turn?_of_idle (idle : s.stack = []) : Stage.turn? g ⟨[], s⟩ = none := by
  simp [Stage.turn?, step?_of_stack_nil idle]

/-- How many turns the loops take: two for every node, one for every arc. -/
def turns (g : Digraph) : Nat := 2 * g.nodes.length + g.arcs.length

/-- Every node has been pushed and popped once, and every successor looked at once. -/
structure EachOnce (g : Digraph) (done : List Deed) : Prop where
  pushed : ∀ a, done.count (.push a) = if a ∈ g.nodes then 1 else 0
  popped : ∀ a, done.count (.pop a) = if a ∈ g.nodes then 1 else 0
  looked : ∀ a b, done.count (.look a b) = if b ∈ g.successors a then 1 else 0

namespace Accounts

theorem pushes_perm (h : Accounts g done s) (ended : s.Ended) : pushes done ~ g.nodes := by
  simpa [ended.fresh_nil] using h.nodes

theorem pops_perm (h : Accounts g done s) (ended : s.Ended) : pops done ~ g.nodes := by
  have all := h.pushed
  rw [ended.path_nil, List.nil_append] at all
  exact all.symm.trans (h.pushes_perm ended)

theorem looks_perm (h : Accounts g done s) (ended : s.Ended) : looks done ~ g.nodes.flatMap g.entries := by
  have none : s.pending = [] := by simp [pending, ended.stack_nil]
  have all := h.looked
  rw [none, List.append_nil] at all
  exact all.trans ((h.pushes_perm ended).flatMap_right _)

theorem eachOnce (h : Accounts g done s) (ended : s.Ended) (proper : g.Proper) : EachOnce g done where
  pushed a := by
    rw [← Deed.count_pushes, (h.pushes_perm ended).count_eq, proper.nodes_nodup.count]
  popped a := by
    rw [← Deed.count_pops, (h.pops_perm ended).count_eq, proper.nodes_nodup.count]
  looked a b := by
    rw [← Deed.count_looks, (h.looks_perm ended).count_eq, (Digraph.entries_nodup proper).count]
    simp only [Digraph.mem_entries proper]

end Accounts

theorem Reached.eq_turns (proper : g.Proper) (h : Reached g n done ⟨[], s⟩) (ended : s.Ended) :
    n = turns g := by
  have accounts := h.accounts proper
  have looks := (accounts.looks_perm ended).length_eq.trans (Digraph.entries_perm proper).length_eq
  have pops := (accounts.pops_perm ended).length_eq
  have turns := h.turns_eq
  simp only [List.length_nil, List.length_map] at looks turns
  unfold Search.turns
  omega

theorem reached_whole (proper : g.Proper) : ∃ done, Reached g (turns g) done ⟨[], whole g⟩ := by
  obtain ⟨n, done, h⟩ := (Reached.start (g := g)).visits rfl
  obtain rfl := h.eq_turns proper (whole_ended proper)
  exact ⟨done, h⟩

/-- At every turn of the loops their books are in step and account for what has been done. There is a
next turn until as many have been taken as there are nodes, twice, and arcs; then the whole search is done,
with every node pushed and popped once and every successor looked at once, no node is marked as on the way
and all are visited. -/
theorem turns_in_step (edges : List Edge) :
    (∀ n done p, Reached (.ofEdges edges) n done p →
      n ≤ turns (.ofEdges edges) ∧ (n < turns (.ofEdges edges) ↔ (p.turn? (.ofEdges edges)).isSome) ∧
        p.search.InStep edges ∧ Accounts (.ofEdges edges) done p.search) ∧
      ∃ done, Reached (.ofEdges edges) (turns (.ofEdges edges)) done ⟨[], whole (.ofEdges edges)⟩ ∧
        EachOnce (.ofEdges edges) done ∧ (whole (.ofEdges edges)).Ended := by
  have proper := Digraph.ofEdges_proper edges
  have ended := whole_ended proper
  obtain ⟨all, whole⟩ := reached_whole proper
  have last := turn?_of_idle (g := .ofEdges edges) ended.stack_nil
  refine ⟨fun n done p h => ?_, all, whole, (whole.accounts proper).eachOnce ended proper, ended⟩
  obtain ⟨_, _, traced⟩ := h.traced proper
  have within := whole.le_of_stop last h
  refine ⟨within, ⟨fun more => ?_, fun some => ?_⟩, traced.inStep, h.accounts proper⟩
  · by_contra stop
    have := h.le_of_stop (Option.not_isSome_iff_eq_none.1 stop) whole
    omega
  · refine lt_of_le_of_ne within ?_
    rintro rfl
    obtain ⟨-, rfl⟩ := h.unique whole
    rw [last] at some
    cases some

/-- The search of `sharingCalls` when it has gone from `a` to `b`. Next comes the arc that leads back. -/
def goneToB : Stage :=
  ⟨["b", "c"], [⟨"b", ["a", "c"]⟩, ⟨"a", []⟩], ["a", "b"], ["b", "a"], ["c"], []⟩

theorem turns_in_step_sharingCalls :
    turns (.ofEdges sharingCalls) = 10 ∧
      Reached (.ofEdges sharingCalls) 2 [.push "a", .look "a" "b", .push "b"] goneToB ∧
        goneToB.search.InStep sharingCalls ∧ (goneToB.turn? (.ofEdges sharingCalls)).isSome := by
  have count : turns (.ofEdges sharingCalls) = 10 := by cbv
  have first : Reached (.ofEdges sharingCalls) 1 [.push "a"]
      ⟨["b", "c"], [⟨"a", ["b"]⟩], ["a"], ["a"], ["b", "c"], []⟩ := Reached.start.turn (by cbv)
  have second : Reached (.ofEdges sharingCalls) 2 [.push "a", .look "a" "b", .push "b"] goneToB :=
    first.turn (by cbv)
  obtain ⟨-, going, inStep, -⟩ := (turns_in_step sharingCalls).1 _ _ _ second
  have before : 2 < turns (.ofEdges sharingCalls) := by rw [count]; decide
  exact ⟨count, second, inStep, going.1 before⟩

end Search
end ServiceMap
