import Mathlib

/-!
# Finite tables

A table maps finitely many keys to one value each: a hash map, a relation with a primary key, the
servers of a load balancer. Iteration over one is in no particular order, so a reader of it is
handed an `IterOrder`. `total f` adds `f` up over the values, and the lemmas say how inserting and
erasing a key change that sum; with multisets for values it is the law of conservation of a table.
-/

namespace OpenShard

/-- The order in which one iteration meets the elements of a collection. -/
structure IterOrder (α : Type) where
  order : List α → List α
  perm : ∀ l, (order l).Perm l

namespace IterOrder

variable {α : Type}

instance : Inhabited (IterOrder α) := ⟨⟨id, fun _ => .refl _⟩⟩

@[simp] theorem mem_order (o : IterOrder α) (l : List α) (a : α) : a ∈ o.order l ↔ a ∈ l :=
  (o.perm l).mem_iff

end IterOrder

abbrev Table (K V : Type) := AList fun _ : K => V

namespace Table

variable {K V M : Type} [DecidableEq K]

def values (t : Table K V) : List V := t.entries.map Sigma.snd

theorem mem_values {t : Table K V} {v : V} : v ∈ values t ↔ ∃ k, t.lookup k = some v := by
  simp only [values, List.mem_map, Sigma.exists, exists_eq_right]
  constructor
  · rintro ⟨k, hk⟩
    exact ⟨k, AList.mem_lookup_iff.2 hk⟩
  · rintro ⟨k, hk⟩
    exact ⟨k, AList.mem_lookup_iff.1 hk⟩

theorem lookup_of_find?_order {o : IterOrder V} {t : Table K V} {p : V → Bool} {v : V}
    (h : (o.order (values t)).find? p = some v) : ∃ k, t.lookup k = some v ∧ p v := by
  have hmem := List.mem_of_find?_eq_some h
  rw [IterOrder.mem_order, mem_values] at hmem
  obtain ⟨k, hk⟩ := hmem
  exact ⟨k, hk, List.find?_some h⟩

theorem nodup_map_values {key : V → K} (t : Table K V)
    (h : ∀ k v, t.lookup k = some v → key v = k) : ((values t).map key).Nodup := by
  have hkeys : (values t).map key = t.keys := by
    rw [values, List.map_map]
    refine List.map_congr_left fun e he => h e.1 e.2 ?_
    exact AList.mem_lookup_iff.2 he
  rw [hkeys]
  exact t.keys_nodup

theorem lookup_insert_if (t : Table K V) (k k' : K) (v : V) :
    (t.insert k v).lookup k' = if k' = k then some v else t.lookup k' := by
  by_cases h : k' = k
  · subst h
    rw [AList.lookup_insert, if_pos rfl]
  · rw [AList.lookup_insert_ne h, if_neg h]

theorem lookup_erase_if (t : Table K V) (k k' : K) :
    (t.erase k).lookup k' = if k' = k then none else t.lookup k' := by
  by_cases h : k' = k
  · subst h
    rw [AList.lookup_erase, if_pos rfl]
  · rw [AList.lookup_erase_ne h, if_neg h]

theorem erase_of_lookup_none {t : Table K V} {k : K} (h : t.lookup k = none) : t.erase k = t :=
  AList.ext (List.kerase_of_notMem_keys (AList.lookup_eq_none.1 h))

def restrict (p : K → Bool) (t : Table K V) : Table K V :=
  ⟨t.entries.filter fun e => p e.1, t.nodupKeys.sublist List.filter_sublist⟩

theorem erase_insert (t : Table K V) (k : K) (v : V) : (t.insert k v).erase k = t.erase k := by
  refine AList.ext ?_
  simp only [AList.erase, AList.entries_insert]
  exact List.kerase_cons_eq rfl

theorem lookup_restrict (p : K → Bool) (t : Table K V) (k : K) :
    (restrict p t).lookup k = if p k then t.lookup k else none := by
  refine Option.ext fun v => ?_
  have hmem : (restrict p t).lookup k = some v ↔ ⟨k, v⟩ ∈ t.entries ∧ p k := by
    rw [← Option.mem_def, AList.mem_lookup_iff]
    simp [restrict]
  have hmem' : t.lookup k = some v ↔ ⟨k, v⟩ ∈ t.entries := by
    rw [← Option.mem_def, AList.mem_lookup_iff]
  split_ifs with hp
  · rw [hmem, hmem', and_iff_left hp]
  · rw [hmem]
    simp [hp]

theorem exists_map_eq {α β : Type} {f : α → β} {P : α → Prop} {l : List β}
    (h : ∀ b ∈ l, ∃ a, f a = b ∧ P a) : ∃ xs : List α, xs.map f = l ∧ ∀ a ∈ xs, P a := by
  induction l with
  | nil => exact ⟨[], rfl, by simp⟩
  | cons b l ih =>
      obtain ⟨a, rfl, ha⟩ := h b (by simp)
      obtain ⟨xs, rfl, hxs⟩ := ih fun b' hb' => h b' (by simp [hb'])
      exact ⟨a :: xs, rfl, by simpa using ⟨ha, hxs⟩⟩

section Total

variable [AddCommMonoid M]

def total (f : V → M) (t : Table K V) : M := ((values t).map f).sum

theorem total_insert (f : V → M) (t : Table K V) (k : K) (v : V) :
    total f (t.insert k v) = f v + total f (t.erase k) := by
  simp only [total, values, AList.entries_insert, List.map_cons, List.sum_cons, AList.erase]

theorem total_eq_sum_keys (f : V → M) (t : Table K V) :
    total f t = (t.keys.map fun k => ((t.lookup k).map f).getD 0).sum := by
  rw [total, values, AList.keys, List.keys, List.map_map, List.map_map]
  refine congrArg List.sum (List.map_congr_left fun e he => ?_)
  have hlookup : t.lookup e.1 = some e.2 := AList.mem_lookup_iff.2 he
  simp [hlookup]

theorem total_congr {f : V → M} {t t' : Table K V}
    (h : ∀ k, (t.lookup k).map f = (t'.lookup k).map f) : total f t = total f t' := by
  have hkeys : t.keys.Perm t'.keys := by
    refine (List.perm_ext_iff_of_nodup t.keys_nodup t'.keys_nodup).2 fun k => ?_
    rw [← AList.mem_keys, ← AList.mem_keys, ← AList.lookup_isSome, ← AList.lookup_isSome,
      ← Option.isSome_map, h, Option.isSome_map]
  rw [total_eq_sum_keys, total_eq_sum_keys]
  simp only [h]
  exact (hkeys.map _).sum_eq

/-- The sum of a table is the summand of one key and the sum of the others. -/
theorem total_split (f : V → M) (t : Table K V) (k : K) :
    total f t = ((t.lookup k).map f).getD 0 + total f (t.erase k) := by
  cases h : t.lookup k with
  | none => rw [erase_of_lookup_none h, Option.map_none, Option.getD_none, zero_add]
  | some v =>
      have hsame : ∀ k', (t.lookup k').map f = (((t.erase k).insert k v).lookup k').map f := by
        intro k'
        rw [lookup_insert_if, lookup_erase_if]
        split_ifs with hk
        · rw [hk, h]
        · rfl
      rw [total_congr hsame, total_insert, erase_of_lookup_none (AList.lookup_erase k t),
        Option.map_some, Option.getD_some]

end Total

end Table
end OpenShard
