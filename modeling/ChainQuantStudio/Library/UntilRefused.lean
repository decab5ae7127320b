import Mathlib.Data.List.TakeWhile
import Mathlib.Tactic.Common

/-!
# Updating entries until one refuses

A loop updates the entries of a list one after another and stops at the first that refuses. What it
leaves is the accepted prefix updated and the rest as it was.
-/

namespace ChainQuantStudio.UntilRefused

variable {α β : Type*} {accepts : α → Bool} {update : α → α} {entries : List α}

def untilRefused (accepts : α → Bool) (update : α → α) : List α → List α × Bool
  | [] => ([], true)
  | entry :: rest =>
    if accepts entry then
      let (updated, done) := untilRefused accepts update rest
      (update entry :: updated, done)
    else (entry :: rest, false)

theorem untilRefused_eq (entries : List α) :
    untilRefused accepts update entries =
      ((entries.takeWhile accepts).map update ++ entries.dropWhile accepts,
        entries.all accepts) := by
  induction entries with
  | nil => rfl
  | cons entry rest ih =>
    rw [untilRefused]
    cases h : accepts entry with
    | true => simp [ih, h]
    | false => simp [h]

theorem untilRefused_of_all (h : entries.all accepts = true) :
    untilRefused accepts update entries = (entries.map update, true) := by
  have htake : entries.takeWhile accepts = entries := by
    rw [List.takeWhile_eq_self_iff]
    exact List.all_eq_true.mp h
  have hdrop : entries.dropWhile accepts = [] := by
    rw [List.dropWhile_eq_nil_iff]
    exact List.all_eq_true.mp h
  rw [untilRefused_eq, htake, hdrop, List.append_nil, h]

/-- The loop runs over entries made from others. What is read of the outcome is what was read of
those exactly when it is for the accepted ones after their update and for the rest without it. -/
theorem map_untilRefused_map_eq_iff {γ : Type*} {make : γ → α} {read : α → β} {read' : γ → β}
    (sources : List γ) :
    (untilRefused accepts update (sources.map make)).1.map read = sources.map read' ↔
      (∀ source ∈ sources.takeWhile (accepts ∘ make), read (update (make source)) = read' source) ∧
        ∀ source ∈ sources.dropWhile (accepts ∘ make), read (make source) = read' source := by
  have hsplit := @List.takeWhile_append_dropWhile γ (accepts ∘ make) sources
  rw [untilRefused_eq, List.takeWhile_map, List.dropWhile_map, List.map_append, List.map_map,
    List.map_map, List.map_map]
  nth_rewrite 3 [← hsplit]
  rw [List.map_append]
  have hlength : ((sources.takeWhile (accepts ∘ make)).map (read ∘ update ∘ make)).length =
      ((sources.takeWhile (accepts ∘ make)).map read').length := by
    rw [List.length_map, List.length_map]
  refine Iff.trans ⟨fun h => List.append_inj h hlength, fun h => by rw [h.1, h.2]⟩ ?_
  exact and_congr List.map_inj_left List.map_inj_left

end ChainQuantStudio.UntilRefused
