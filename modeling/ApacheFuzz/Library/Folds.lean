import Mathlib.Data.List.AList
import Mathlib.Data.List.Nodup

/-!
# Loops that keep a dictionary

A loop that treats every key once changes the entry of a key in its own round only.
-/

namespace List

variable {α β σ : Type*} {f : σ → α → σ}

theorem foldl_view_frame (view : σ → β) {l : List α}
    (hframe : ∀ s, ∀ b ∈ l, view (f s b) = view s) (s : σ) :
    view (l.foldl f s) = view s := by
  induction l generalizing s with
  | nil => rfl
  | cons b l ih =>
    rw [foldl_cons, ih fun s c hc => hframe s c (mem_cons_of_mem b hc)]
    exact hframe s b mem_cons_self

end List

namespace AList

variable {α β : Type*} [DecidableEq α]

/-- Store the items in order, the later over the earlier. -/
def storeAll (dictionary : AList fun _ : α => β) (items : List (α × β)) : AList fun _ : α => β :=
  items.foldl (fun dictionary item => dictionary.insert item.1 item.2) dictionary

variable {dictionary : AList fun _ : α => β} {items items' : List (α × β)} {key : α} {value : β}

theorem storeAll_append : dictionary.storeAll (items ++ items') =
    (dictionary.storeAll items).storeAll items' :=
  List.foldl_append

theorem lookup_storeAll_of_notMem (h : key ∉ items.map Prod.fst) :
    (dictionary.storeAll items).lookup key = dictionary.lookup key := by
  refine List.foldl_view_frame (lookup key) (fun s item hitem => ?_) dictionary
  refine lookup_insert_ne ?_
  intro heq
  exact h (List.mem_map.mpr ⟨item, hitem, heq.symm⟩)

variable (dictionary) in
theorem lookup_storeAll_of_mem (h : key ∈ items.map Prod.fst) :
    ∃ value, (key, value) ∈ items ∧ (dictionary.storeAll items).lookup key = some value := by
  induction items generalizing dictionary with
  | nil => cases h
  | cons item items ih =>
    by_cases hlater : key ∈ items.map Prod.fst
    · obtain ⟨value, hmem, hlookup⟩ := ih (dictionary.insert item.1 item.2) hlater
      exact ⟨value, List.mem_cons_of_mem item hmem, hlookup⟩
    · have hkey : key = item.1 := by
        rw [List.map_cons, List.mem_cons] at h
        exact h.resolve_right hlater
      refine ⟨item.2, ?_, ?_⟩
      · rw [hkey]
        exact List.mem_cons_self
      · rw [storeAll, List.foldl_cons, ← storeAll, lookup_storeAll_of_notMem hlater, hkey]
        exact lookup_insert _

theorem lookup_storeAll (h : (dictionary.storeAll items).lookup key = some value) :
    (key, value) ∈ items ∨ dictionary.lookup key = some value := by
  by_cases hmem : key ∈ items.map Prod.fst
  · obtain ⟨stored, hitem, hlookup⟩ := lookup_storeAll_of_mem dictionary hmem
    rw [hlookup, Option.some.injEq] at h
    exact .inl (h ▸ hitem)
  · rw [lookup_storeAll_of_notMem hmem] at h
    exact .inr h

end AList
