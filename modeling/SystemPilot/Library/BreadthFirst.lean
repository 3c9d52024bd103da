import Mathlib.Tactic

/-!
# Breadth-first search

The loop over a queue with a set of the nodes that were ever queued.  What it
leaves is a breadth-first closure of its start under the steps it follows: each
node that can be reached, once, in the order of its distance.
-/

set_option autoImplicit false

namespace SystemPilot.Library.BreadthFirst

/-! ## Closures -/

section Closure

variable {Node : Type} (leads : Node → Node → Prop) (start : Node)

/-- A node is reached in so many steps. -/
inductive Walk : Nat → Node → Prop where
  | here : Walk 0 start
  | onwards {length : Nat} {node next : Node} (walk : Walk length node) (step : leads node next) :
      Walk (length + 1) next

theorem walk_iff_reachable (node : Node) :
    (∃ length, Walk leads start length node) ↔ Relation.ReflTransGen leads start node := by
  constructor
  · rintro ⟨length, walk⟩
    induction walk with
    | here => exact .refl
    | onwards walk step inductionHypothesis => exact inductionHypothesis.tail step
  · intro reachable
    induction reachable with
    | refl => exact ⟨0, .here⟩
    | tail _ step inductionHypothesis =>
        obtain ⟨length, walk⟩ := inductionHypothesis
        exact ⟨length + 1, walk.onwards step⟩

/-- The length of a shortest walk. -/
noncomputable def distance (node : Node) : Nat := sInf {length | Walk leads start length node}

theorem distance_le {length : Nat} {node : Node} (walk : Walk leads start length node) :
    distance leads start node ≤ length := Nat.sInf_le walk

theorem walk_distance {length : Nat} {node : Node} (walk : Walk leads start length node) :
    Walk leads start (distance leads start node) node :=
  Nat.sInf_mem (s := {length | Walk leads start length node}) ⟨length, walk⟩

/-- A list of nodes is a breadth-first closure of its first one. -/
structure Closure (path : List Node) : Prop where
  first : path.head? = some start
  nodup : path.Nodup
  members : ∀ node, node ∈ path ↔ Relation.ReflTransGen leads start node
  ordered : path.Pairwise fun before after =>
    distance leads start before ≤ distance leads start after

end Closure

/-! ## The loop -/

/-- The variables of the loop; `visited` is a set. -/
structure Traversal (Node : Type) where
  queue : List Node
  visited : List Node
  path : List Node
  deriving DecidableEq

variable {Node : Type} [DecidableEq Node]

/-- `if visited.insert(node) { queue.push_back(node) }`. -/
def visit (traversal : Traversal Node) (node : Node) : Traversal Node :=
  if node ∈ traversal.visited then traversal
  else { traversal with
    queue := traversal.queue ++ [node]
    visited := node :: traversal.visited }

/-- One round of the loop: the first node in the queue goes to the path, and what
it leads to is visited. -/
def round (next : Node → List Node) (traversal : Traversal Node) : Traversal Node :=
  match traversal.queue with
  | [] => traversal
  | current :: queue =>
      (next current).foldl visit { traversal with queue, path := traversal.path ++ [current] }

def starting (start : Node) : Traversal Node where
  queue := [start]
  visited := [start]
  path := []

/-- The state after so many rounds; none is left to do once the queue is empty. -/
def search (next : Node → List Node) (start : Node) (rounds : Nat) : Traversal Node :=
  (round next)^[rounds] (starting start)

theorem visit_of_mem {traversal : Traversal Node} {node : Node}
    (seen : node ∈ traversal.visited) : visit traversal node = traversal := if_pos seen

theorem visit_of_not_mem {traversal : Traversal Node} {node : Node}
    (fresh : node ∉ traversal.visited) :
    visit traversal node = { traversal with
      queue := traversal.queue ++ [node]
      visited := node :: traversal.visited } := if_neg fresh

/-- What visiting a list of nodes does: the new ones are queued, each once. -/
structure Visited (nodes : List Node) (before after : Traversal Node) (fresh : List Node) :
    Prop where
  path : after.path = before.path
  queue : after.queue = before.queue ++ fresh
  visited : ∀ node, node ∈ after.visited ↔ node ∈ before.visited ∨ node ∈ fresh
  nodup : fresh.Nodup
  new : ∀ node ∈ fresh, node ∈ nodes ∧ node ∉ before.visited
  all : ∀ node ∈ nodes, node ∈ before.visited ∨ node ∈ fresh

theorem foldl_visit (nodes : List Node) (traversal : Traversal Node) :
    ∃ fresh, Visited nodes traversal (nodes.foldl visit traversal) fresh := by
  induction nodes generalizing traversal with
  | nil => exact ⟨[], rfl, by simp, by simp, List.nodup_nil, by simp, by simp⟩
  | cons node nodes inductionHypothesis =>
      obtain ⟨fresh, later⟩ := inductionHypothesis (visit traversal node)
      by_cases seen : node ∈ traversal.visited
      · rw [visit_of_mem seen] at later
        refine ⟨fresh, ?_⟩
        rw [List.foldl_cons, visit_of_mem seen]
        refine ⟨later.path, later.queue, later.visited, later.nodup, ?_, ?_⟩
        · intro other member
          exact ⟨by simp [(later.new other member).1], (later.new other member).2⟩
        · intro other member
          rcases List.mem_cons.mp member with rfl | member
          · exact Or.inl seen
          · exact later.all other member
      · rw [visit_of_not_mem seen] at later
        refine ⟨node :: fresh, ?_⟩
        rw [List.foldl_cons, visit_of_not_mem seen]
        have apart : node ∉ fresh := fun member => (later.new node member).2 (by simp)
        refine ⟨later.path, ?_, ?_, List.nodup_cons.mpr ⟨apart, later.nodup⟩, ?_, ?_⟩
        · rw [later.queue, List.append_assoc, List.singleton_append]
        · intro other
          rw [later.visited, List.mem_cons, List.mem_cons]
          tauto
        · intro other member
          rcases List.mem_cons.mp member with rfl | member
          · exact ⟨by simp, seen⟩
          · obtain ⟨given, unseen⟩ := later.new other member
            exact ⟨by simp [given], fun old => unseen (by simp [old])⟩
        · intro other member
          rcases List.mem_cons.mp member with rfl | member
          · exact Or.inr (by simp)
          · rcases later.all other member with old | new
            · rcases List.mem_cons.mp old with rfl | old
              · exact Or.inr (by simp)
              · exact Or.inl old
            · exact Or.inr (by simp [new])

/-! ## The invariant -/

section Invariant

variable (leads : Node → Node → Prop) (start : Node)

/-- The nodes in the order they were queued, with the length of a walk to each. -/
structure Sound (level : Node → Nat) (traversal : Traversal Node) : Prop where
  visited : ∀ node, node ∈ traversal.visited ↔ node ∈ traversal.path ++ traversal.queue
  first : (traversal.path ++ traversal.queue).head? = some start
  zero : level start = 0
  nodup : (traversal.path ++ traversal.queue).Nodup
  walked : ∀ node ∈ traversal.path ++ traversal.queue, Walk leads start (level node) node
  ordered : (traversal.path ++ traversal.queue).Pairwise fun before after =>
    level before ≤ level after
  followed : ∀ node ∈ traversal.path, ∀ next, leads node next →
    next ∈ traversal.path ++ traversal.queue ∧ level next ≤ level node + 1
  near : ∀ node ∈ traversal.queue, ∀ other ∈ traversal.queue, level other ≤ level node + 1

variable {leads start}

omit [DecidableEq Node] in
theorem sound_starting : Sound leads start (fun _ => 0) (starting start) where
  visited := by simp [starting]
  first := rfl
  zero := rfl
  nodup := List.nodup_singleton start
  walked := by
    intro node member
    obtain rfl := List.mem_singleton.mp member
    exact .here
  ordered := List.pairwise_singleton _ start
  followed := by simp [starting]
  near := by simp

/-- The nodes queued behind `current` lie one step further than it. -/
theorem Sound.round {next : Node → List Node}
    (follows : ∀ node other, other ∈ next node ↔ leads node other) {level : Node → Nat}
    {traversal : Traversal Node} (sound : Sound leads start level traversal) :
    ∃ level', Sound leads start level' (round next traversal) := by
  obtain ⟨queue, visited, path⟩ := traversal
  cases queue with
  | nil => exact ⟨level, sound⟩
  | cons current queue =>
      obtain ⟨fresh, after⟩ := foldl_visit (next current)
        { queue, visited, path := path ++ [current] }
      let level' : Node → Nat := fun node => if node ∈ fresh then level current + 1 else level node
      have outside : ∀ node ∈ path ++ current :: queue, node ∉ fresh := by
        intro node known member
        exact (after.new node member).2 ((sound.visited node).mpr known)
      have kept : ∀ node ∈ path ++ current :: queue, level' node = level node :=
        fun node known => if_neg (outside node known)
      have raised : ∀ node ∈ fresh, level' node = level current + 1 := fun node member =>
        if_pos member
      have here : current ∈ path ++ current :: queue := by simp
      have below : ∀ node ∈ path ++ current :: queue, level node ≤ level current + 1 := by
        intro node known
        rcases List.mem_append.mp known with earlier | waiting
        · have ordered := (List.pairwise_append.mp sound.ordered).2.2 node earlier current (by simp)
          omega
        · exact sound.near current (by simp) node waiting
      have above : ∀ node ∈ queue, level current ≤ level node := by
        intro node member
        have tail := (List.pairwise_append.mp sound.ordered).2.1
        exact (List.pairwise_cons.mp tail).1 node member
      refine ⟨level', ?_⟩
      have order : (BreadthFirst.round next ⟨current :: queue, visited, path⟩).path ++
          (BreadthFirst.round next ⟨current :: queue, visited, path⟩).queue =
            (path ++ current :: queue) ++ fresh := by
        change ((next current).foldl visit _).path ++ ((next current).foldl visit _).queue = _
        rw [after.path, after.queue]
        simp
      constructor
      · intro node
        rw [order, List.mem_append, ← sound.visited node]
        exact after.visited node
      · rw [order, List.head?_append, sound.first]
        rfl
      · rw [kept start (List.mem_of_mem_head? sound.first)]
        exact sound.zero
      · rw [order]
        refine List.nodup_append.mpr ⟨sound.nodup, after.nodup, ?_⟩
        rintro node known other member rfl
        exact outside node known member
      · rw [order]
        intro node member
        rcases List.mem_append.mp member with known | new
        · rw [kept node known]
          exact sound.walked node known
        · rw [raised node new]
          exact (sound.walked current here).onwards
            ((follows current node).mp (after.new node new).1)
      · rw [order]
        refine List.pairwise_append.mpr ⟨?_, ?_, ?_⟩
        · refine sound.ordered.imp_of_mem ?_
          intro before behind knownBefore knownBehind sorted
          rw [kept before knownBefore, kept behind knownBehind]
          exact sorted
        · refine List.pairwise_of_forall_mem_list ?_
          intro before new behind newBehind
          rw [raised before new, raised behind newBehind]
        · intro node known new member
          rw [kept node known, raised new member]
          exact below node known
      · intro node member other step
        rw [order]
        change node ∈ ((next current).foldl visit _).path at member
        rw [after.path] at member
        rcases List.mem_append.mp member with earlier | last
        · obtain ⟨known, close⟩ := sound.followed node earlier other step
          refine ⟨List.mem_append_left _ known, ?_⟩
          rw [kept other known, kept node (by simp [earlier])]
          exact close
        · obtain rfl := List.mem_singleton.mp last
          rw [kept node here]
          rcases after.all other ((follows node other).mpr step) with seen | new
          · have known := (sound.visited other).mp seen
            exact ⟨List.mem_append_left _ known, (kept other known).trans_le (below other known)⟩
          · exact ⟨List.mem_append_right _ new, (raised other new).le⟩
      · intro node waiting other behind
        change node ∈ ((next current).foldl visit _).queue at waiting
        change other ∈ ((next current).foldl visit _).queue at behind
        rw [after.queue] at waiting behind
        have low : level current ≤ level' node := by
          rcases List.mem_append.mp waiting with old | new
          · rw [kept node (by simp [old])]
            exact above node old
          · rw [raised node new]
            omega
        have high : level' other ≤ level current + 1 := by
          rcases List.mem_append.mp behind with old | new
          · rw [kept other (by simp [old])]
            exact below other (by simp [old])
          · rw [raised other new]
        omega

theorem sound_search {next : Node → List Node}
    (follows : ∀ node other, other ∈ next node ↔ leads node other) (rounds : Nat) :
    ∃ level, Sound leads start level (search next start rounds) := by
  induction rounds with
  | zero => exact ⟨_, sound_starting⟩
  | succ rounds inductionHypothesis =>
      obtain ⟨level, sound⟩ := inductionHypothesis
      rw [search, Function.iterate_succ_apply']
      exact sound.round follows

end Invariant

/-! ## The end of the loop -/

/-- Every round puts one node on the path while there is one in the queue. -/
theorem length_path_search (next : Node → List Node) (start : Node) (rounds : Nat) :
    (search next start rounds).queue = [] ∨ (search next start rounds).path.length = rounds := by
  induction rounds with
  | zero => exact Or.inr rfl
  | succ rounds inductionHypothesis =>
      rw [search, Function.iterate_succ_apply', ← search]
      cases state : search next start rounds with
      | mk queue visited path =>
      rw [state] at inductionHypothesis
      cases queue with
      | nil => exact Or.inl rfl
      | cons current queue =>
          obtain ⟨fresh, after⟩ := foldl_visit (next current)
            { queue, visited, path := path ++ [current] }
          refine Or.inr ?_
          change ((next current).foldl visit _).path.length = _
          rw [after.path, List.length_append, List.length_singleton]
          rcases inductionHypothesis with empty | length
          · cases empty
          · rw [length]

/-- The loop ends within as many rounds as there are nodes that can be reached. -/
theorem queue_search {leads : Node → Node → Prop} {start : Node} {next : Node → List Node}
    (follows : ∀ node other, other ∈ next node ↔ leads node other) {nodes : List Node}
    (bounded : ∀ node, Relation.ReflTransGen leads start node → node ∈ nodes) {rounds : Nat}
    (enough : nodes.length ≤ rounds) : (search next start rounds).queue = [] := by
  obtain ⟨level, sound⟩ : ∃ level, Sound leads start level (search next start rounds) :=
    sound_search follows rounds
  have inside : (search next start rounds).path ++ (search next start rounds).queue ⊆ nodes := by
    intro node member
    exact bounded node ((walk_iff_reachable leads start node).mp ⟨_, sound.walked node member⟩)
  have few := (List.subperm_of_subset sound.nodup inside).length_le
  rw [List.length_append] at few
  rcases length_path_search next start rounds with empty | length
  · exact empty
  · exact List.length_eq_zero_iff.mp (by omega)

/-- What the loop leaves is a breadth-first closure. -/
theorem closure_search {leads : Node → Node → Prop} {start : Node} {next : Node → List Node}
    (follows : ∀ node other, other ∈ next node ↔ leads node other) {rounds : Nat}
    (ended : (search next start rounds).queue = []) :
    Closure leads start (search next start rounds).path := by
  obtain ⟨level, sound⟩ : ∃ level, Sound leads start level (search next start rounds) :=
    sound_search follows rounds
  have first := sound.first
  have nodup := sound.nodup
  have walked := sound.walked
  have ordered := sound.ordered
  have followed := sound.followed
  rw [ended, List.append_nil] at first nodup walked ordered
  simp only [ended, List.append_nil] at followed
  -- a walk stays on the path, and the levels grow no faster than it
  have levels : ∀ length node, Walk leads start length node →
      node ∈ (search next start rounds).path ∧ level node ≤ length := by
    intro length node walk
    induction walk with
    | here => exact ⟨List.mem_of_mem_head? first, sound.zero.le⟩
    | onwards walk step inductionHypothesis =>
        obtain ⟨member, level⟩ := inductionHypothesis
        obtain ⟨there, near⟩ := followed _ member _ step
        exact ⟨there, by omega⟩
  have shortest : ∀ node ∈ (search next start rounds).path,
      distance leads start node = level node := by
    intro node member
    have walk := walked node member
    exact Nat.le_antisymm (distance_le leads start walk)
      (levels _ node (walk_distance leads start walk)).2
  refine ⟨first, nodup, ?_, ?_⟩
  · intro node
    rw [← walk_iff_reachable]
    constructor
    · intro member
      exact ⟨level node, walked node member⟩
    · rintro ⟨length, walk⟩
      exact (levels length node walk).1
  · refine ordered.imp_of_mem ?_
    intro before after knownBefore knownAfter sorted
    rw [shortest before knownBefore, shortest after knownAfter]
    exact sorted

end SystemPilot.Library.BreadthFirst
