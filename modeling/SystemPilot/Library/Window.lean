import Mathlib.Tactic

/-!
# Serving the head of a queue

A round looks at a bounded window at the head of a queue, takes out what it is
done with and leaves the rest where it is.  What stays at the head uses up the
window: everything is seen as long as fewer elements stay than the window holds.
-/

set_option autoImplicit false

namespace SystemPilot.Library.Window

variable {Item : Type} (limit : Nat) (stays : Item → Bool)

/-- One round over the first `limit` elements. -/
def serve (queue : List Item) : List Item :=
  (queue.take limit).filter stays ++ queue.drop limit

/-- The queue after some rounds. -/
def serveRounds : Nat → List Item → List Item
  | 0, queue => queue
  | rounds + 1, queue => serveRounds rounds (serve limit stays queue)

/-- The windows of some rounds. -/
def seen : Nat → List Item → List Item
  | 0, _ => []
  | rounds + 1, queue => queue.take limit ++ seen rounds (serve limit stays queue)

variable {limit stays}

/-- A window that opens with elements that stay serves the elements behind them. -/
theorem serve_append {held : List Item} (rest : List Item) (stay : ∀ item ∈ held, stays item = true)
    (room : held.length ≤ limit) :
    serve limit stays (held ++ rest) =
      (held ++ (rest.take (limit - held.length)).filter stays) ++
        rest.drop (limit - held.length) := by
  have headTaken : held.take limit = held := List.take_of_length_le room
  have headDropped : held.drop limit = [] := List.drop_eq_nil_of_le room
  have kept : held.filter stays = held := List.filter_eq_self.mpr stay
  rw [serve, List.take_append, List.drop_append, List.filter_append, headTaken, headDropped, kept,
    List.nil_append]

/-- With room behind the elements that stay every later element is seen, and the
queue ends with all that stay. -/
theorem serves_all (held rest : List Item)
    (stay : ∀ item ∈ held, stays item = true)
    (room : rest ≠ [] → ((held ++ rest).dropLast.countP stays) < limit) :
    ∃ rounds ≤ rest.length, (∀ item ∈ rest, item ∈ seen limit stays rounds (held ++ rest)) ∧
      serveRounds limit stays rounds (held ++ rest) = held ++ rest.filter stays := by
  induction count : rest.length using Nat.strong_induction_on generalizing held rest with
  | _ count' inductionHypothesis =>
      by_cases empty : rest = []
      · subst empty
        exact ⟨0, Nat.zero_le _, fun item member => absurd member List.not_mem_nil, by
          simp [serveRounds]⟩
      · have enough := room empty
        have heldCount : held.countP stays = held.length := List.countP_eq_length.mpr stay
        rw [List.dropLast_append_of_ne_nil empty, List.countP_append, heldCount] at enough
        -- The next window reaches this far behind the elements that stay.
        obtain ⟨reach, reaches⟩ : ∃ reach, limit = held.length + reach :=
          ⟨limit - held.length, by omega⟩
        have forward : 0 < reach := by omega
        have gap : limit - held.length = reach := by omega
        have served := serve_append rest stay (by omega : held.length ≤ limit)
        rw [gap] at served
        have nextStay : ∀ item ∈ held ++ (rest.take reach).filter stays, stays item = true := by
          intro item member
          rcases List.mem_append.mp member with inHeld | inWindow
          · exact stay item inHeld
          · exact (List.mem_filter.mp inWindow).2
        have shorter : (rest.drop reach).length < count' := by
          have positive : 0 < rest.length := List.length_pos_iff.mpr empty
          rw [List.length_drop]
          omega
        have nextRoom : rest.drop reach ≠ [] →
            ((held ++ (rest.take reach).filter stays) ++ rest.drop reach).dropLast.countP stays <
              limit := by
          intro more
          have whole : rest.dropLast = rest.take reach ++ (rest.drop reach).dropLast := by
            rw [← List.dropLast_append_of_ne_nil more, List.take_append_drop]
          rw [whole, List.countP_append] at enough
          rw [List.dropLast_append_of_ne_nil more, List.countP_append, List.countP_append,
            heldCount, List.countP_filter]
          simpa [Nat.add_assoc] using enough
        obtain ⟨rounds, few, reached, ended⟩ :=
          inductionHypothesis _ shorter _ (rest.drop reach) nextStay nextRoom rfl
        refine ⟨rounds + 1, by omega, ?_, ?_⟩
        · intro item member
          rw [seen, served, List.mem_append]
          rcases List.mem_append.mp
              (show item ∈ rest.take reach ++ rest.drop reach by
                rwa [List.take_append_drop]) with inWindow | later
          · left
            rw [List.take_append, gap]
            exact List.mem_append_right _ inWindow
          · exact .inr (reached item later)
        · rw [serveRounds, served, ended, List.append_assoc, ← List.filter_append,
            List.take_append_drop]

/-- Behind a full window of elements that stay nothing is seen. -/
theorem last_unseen (rounds : Nat) {queue : List Item} {last : Item} (absent : last ∉ queue)
    (full : limit ≤ queue.countP stays) : last ∉ seen limit stays rounds (queue ++ [last]) := by
  induction rounds generalizing queue with
  | zero => exact List.not_mem_nil
  | succ rounds inductionHypothesis =>
      have long : limit ≤ queue.length := full.trans List.countP_le_length
      have window : (queue ++ [last]).take limit = queue.take limit :=
        List.take_append_of_le_length long
      have rest : (queue ++ [last]).drop limit = queue.drop limit ++ [last] :=
        List.drop_append_of_le_length long
      rw [seen, serve, window, rest, ← List.append_assoc, List.mem_append, not_or]
      refine ⟨fun member => absent (List.mem_of_mem_take member), inductionHypothesis ?_ ?_⟩
      · intro member
        rcases List.mem_append.mp member with inWindow | later
        · exact absent (List.mem_of_mem_take (List.mem_filter.mp inWindow).1)
        · exact absent (List.mem_of_mem_drop later)
      · rw [List.countP_append, List.countP_filter]
        simp only [Bool.and_self]
        rw [← List.countP_append, List.take_append_drop]
        exact full

/-- As many rounds as there are elements see them all and leave those that stay,
exactly when fewer than a window of the elements before the last one stay. -/
theorem serves_all_iff {queue : List Item} (distinct : queue.Nodup) (positive : 0 < limit) :
    (∃ rounds ≤ queue.length, (∀ item ∈ queue, item ∈ seen limit stays rounds queue) ∧
      serveRounds limit stays rounds queue = queue.filter stays) ↔
      queue.dropLast.countP stays < limit := by
  constructor
  · rintro ⟨rounds, -, all, -⟩
    by_contra full
    rcases List.eq_nil_or_concat queue with rfl | ⟨front, last, rfl⟩
    · simp at full
      omega
    · rw [List.concat_eq_append] at *
      rw [List.dropLast_concat] at full
      have absent : last ∉ front := by
        intro member
        exact (List.nodup_append.mp distinct).2.2 last member last List.mem_cons_self rfl
      exact last_unseen rounds absent (Nat.not_lt.mp full)
        (all last (List.mem_append_right _ List.mem_cons_self))
  · intro room
    obtain ⟨rounds, few, all, ended⟩ := serves_all [] queue
      (fun item member => absurd member List.not_mem_nil) fun _ => room
    exact ⟨rounds, few, all, ended⟩

end SystemPilot.Library.Window
