import Mathlib.Data.List.Forall2
import Mathlib.Data.List.Induction
import Mathlib.Data.List.Nodup
import Mathlib.Data.List.Sort
import Mathlib.Data.Multiset.Filter

/-!
# Lists

Facts about lists that know nothing of a desk: elements under keys, lists that grow at their
end, the order and the number of elements.
-/

namespace ExchangeDesk

variable {α β : Type} {l : List α} {a x : α}

-- ---------------------------------------------------------------------------
-- Elements under keys
-- ---------------------------------------------------------------------------

section

variable {κ : Type} [DecidableEq κ] {key : α → κ} {k : κ} {before after : List α}

theorem find?_key (hkeys : (l.map key).Nodup) (ha : a ∈ l) :
    l.find? (key · = key a) = some a := by
  obtain ⟨x, hx⟩ : ∃ x, l.find? (key · = key a) = some x :=
    Option.isSome_iff_exists.mp (List.find?_isSome.mpr ⟨a, ha, by simp⟩)
  have hkey : key x = key a := by simpa using List.find?_some hx
  rw [hx, List.inj_on_of_nodup_map hkeys (List.mem_of_find?_eq_some hx) ha hkey]

/-- What is found under its key stands at one place, and nothing else has the key. -/
theorem exists_place_of_find? (hkeys : (l.map key).Nodup) (h : l.find? (key · = k) = some a) :
    ∃ before after, l = before ++ a :: after ∧ key a = k ∧ ∀ x ∈ before ++ after, key x ≠ k := by
  have hkey : key a = k := by simpa using List.find?_some h
  obtain ⟨before, after, rfl⟩ := List.append_of_mem (List.mem_of_find?_eq_some h)
  refine ⟨before, after, rfl, hkey, fun x hx hxk => ?_⟩
  rw [List.map_append, List.map_cons, List.nodup_middle, ← List.map_append, hkey] at hkeys
  exact (List.nodup_cons.mp hkeys).1 (List.mem_map.mpr ⟨x, hx, hxk⟩)

theorem map_at_key (hkey : key a = k) (hothers : ∀ x ∈ before ++ after, key x ≠ k) (b : α) :
    (before ++ a :: after).map (fun x => if key x = k then b else x) = before ++ b :: after := by
  obtain ⟨hbefore, hafter⟩ := List.forall_mem_append.mp hothers
  have hkeep {xs : List α} (hxs : ∀ x ∈ xs, key x ≠ k) :
      xs.map (fun x => if key x = k then b else x) = xs :=
    (List.map_congr_left fun x hx => if_neg (hxs x hx)).trans (List.map_id xs)
  rw [List.map_append, List.map_cons, if_pos hkey, hkeep hbefore, hkeep hafter]

theorem find?_at_key (hkey : key a = k) (hothers : ∀ x ∈ before ++ after, key x ≠ k) :
    (before ++ a :: after).find? (key · = k) = some a := by
  obtain ⟨hbefore, -⟩ := List.forall_mem_append.mp hothers
  rw [List.find?_append, List.find?_eq_none.mpr (by simpa using hbefore)]
  simp [hkey]

theorem filter_at_key (hkey : key a = k) (hothers : ∀ x ∈ before ++ after, key x ≠ k) :
    (before ++ a :: after).filter (key · ≠ k) = before ++ after := by
  rw [List.filter_append, List.filter_cons_of_neg (by simpa using hkey), ← List.filter_append]
  exact List.filter_eq_self.mpr fun x hx => by simpa using hothers x hx

theorem filter_key_length (h : (l.map key).Nodup) (k : κ) :
    (l.filter (key · = k)).length ≤ 1 := by
  have hcount := List.nodup_iff_count_le_one.mp h k
  rwa [List.count_eq_countP, List.countP_map, List.countP_eq_length_filter] at hcount

end

theorem eq_singleton (hlength : l.length ≤ 1) (ha : a ∈ l) : l = [a] := by
  obtain ⟨x, rfl⟩ := List.length_eq_one_iff.mp
    (Nat.le_antisymm hlength (List.length_pos_of_mem ha))
  rw [List.mem_singleton.mp ha]

-- ---------------------------------------------------------------------------
-- One element more
-- ---------------------------------------------------------------------------

theorem concat_split {before after : List α} {y : α} (h : l ++ [x] = before ++ y :: after) :
    (before = l ∧ y = x) ∨ ∃ rest, l = before ++ y :: rest := by
  rcases List.eq_nil_or_concat after with rfl | ⟨rest, z, rfl⟩
  · obtain ⟨rfl, hx⟩ := List.append_inj' h rfl
    exact .inl ⟨rfl, (List.singleton_inj.mp hx).symm⟩
  · rw [List.concat_eq_append, ← List.cons_append, ← List.append_assoc] at h
    exact .inr ⟨rest, (List.append_inj' h rfl).1⟩

theorem nodup_map_concat {f : α → β} :
    ((l ++ [x]).map f).Nodup ↔ (l.map f).Nodup ∧ f x ∉ l.map f := by
  rw [List.map_append, List.map_singleton, ← List.concat_eq_append, List.nodup_concat, and_comm]

theorem filter_concat_le_one {p : α → Bool} : ((l ++ [x]).filter p).length ≤ 1 ↔
    (l.filter p).length ≤ 1 ∧ (p x = true → l.find? p = none) := by
  have hnone : l.find? p = none ↔ (l.filter p).length = 0 := by simp
  cases hx : p x with
  | false => simp [hx]
  | true =>
    simp only [List.filter_append, List.filter_cons, hx, if_true, List.filter_nil,
      List.length_append, List.length_singleton, forall_const, hnone]
    omega

theorem eraseDups_concat [DecidableEq α] (l : List α) (a : α) :
    (l ++ [a]).eraseDups = if a ∈ l then l.eraseDups else l.eraseDups ++ [a] := by
  rw [List.eraseDups_append]
  split
  · next hmem => simp [List.removeAll, hmem]
  · next hnew => simp [List.removeAll, List.eraseDups_cons, hnew]

theorem nodup_eraseDups [DecidableEq α] (l : List α) : l.eraseDups.Nodup := by
  induction l using List.reverseRecOn with
  | nil => exact List.nodup_nil
  | append_singleton l a ih =>
    rw [eraseDups_concat]
    split
    · exact ih
    · next hnew =>
      rw [← List.concat_eq_append, List.nodup_concat]
      exact ⟨by simpa using hnew, ih⟩

-- ---------------------------------------------------------------------------
-- Options in lists
-- ---------------------------------------------------------------------------

theorem mapM_some {f : α → Option β} {g : α → β} (h : ∀ a ∈ l, f a = some (g a)) :
    l.mapM f = some (l.map g) := by
  induction l with
  | nil => rfl
  | cons a l ih =>
    obtain ⟨ha, hl⟩ := List.forall_mem_cons.mp h
    rw [List.mapM_cons, ha, ih hl]
    rfl

theorem flatMap_guard (p : α → Bool) (l : List α) :
    (l.map (Option.guard p)).flatMap Option.toList = l.filter p := by
  rw [List.flatMap_map, ← List.filterMap_eq_flatMap_toList, List.filterMap_eq_filter]

theorem foldl_toList {σ γ : Type} (set : σ → γ → σ) (field : α → γ) (value : σ → α)
    (h : ∀ x, set x (field (value x)) = x) (x : σ) (o : Option α) :
    (o.map field).toList.foldl set x = set x (field (o.getD (value x))) := by
  cases o with
  | none => exact (h x).symm
  | some v => rfl

/-- Slots of which at most one of two is taken hold together what they hold apart. -/
theorem flatMap_zipWith_or {xs ys : List (Option β)}
    (h : List.Forall₂ (fun x y => x = none ∨ y = none) xs ys) :
    ((List.zipWith Option.or xs ys).flatMap Option.toList).Perm
      (xs.flatMap Option.toList ++ ys.flatMap Option.toList) := by
  induction h with
  | nil => exact .refl _
  | @cons x y xs ys hapart _ ih =>
    simp only [List.zipWith_cons_cons, List.flatMap_cons]
    obtain rfl | rfl := hapart
    · rw [Option.none_or, Option.toList_none, List.nil_append]
      exact (ih.append_left _).trans (List.perm_append_comm_assoc _ _ _)
    · rw [Option.or_none, Option.toList_none, List.nil_append, List.append_assoc]
      exact ih.append_left _

-- ---------------------------------------------------------------------------
-- Order
-- ---------------------------------------------------------------------------

theorem filter_or_perm {p q : α → Prop} [DecidablePred p] [DecidablePred q]
    (h : ∀ a ∈ l, ¬ (p a ∧ q a)) :
    (l.filter fun a => p a ∨ q a).Perm (l.filter p ++ l.filter q) := by
  have hboth : Multiset.filter (fun a => p a ∧ q a) (l : Multiset α) = 0 :=
    Multiset.filter_eq_nil.mpr h
  have hsplit := Multiset.filter_add_filter p q (l : Multiset α)
  rw [hboth, Multiset.add_zero] at hsplit
  exact Multiset.coe_eq_coe.mp (by simpa using hsplit.symm)

theorem eq_merge_of_perm {key : β → Nat} {all xs ys : List β} (hperm : all.Perm (xs ++ ys))
    (hall : all.Pairwise (key · < key ·)) (hxs : xs.Pairwise (key · < key ·))
    (hys : ys.Pairwise (key · < key ·)) : all = xs.merge ys (key · ≤ key ·) := by
  have hmerge : (xs.merge ys (key · ≤ key ·)).Pairwise (key · ≤ key ·) := by
    have hboth := List.pairwise_merge (fun a b c hab hbc => by simp at *; omega)
      (fun a b => by simp; omega) xs ys (hxs.imp fun h => decide_eq_true h.le)
      (hys.imp fun h => decide_eq_true h.le)
    simpa using hboth
  have hsame : all.Perm (xs.merge ys (key · ≤ key ·)) :=
    hperm.trans (List.merge_perm_append _).symm
  refine hsame.eq_of_pairwise (fun a b ha hb hab hba => ?_) (hall.imp le_of_lt) hmerge
  -- of one key there is one element only
  have hkeys : (all.map key).Nodup := List.pairwise_map.mpr (hall.imp ne_of_lt)
  exact List.inj_on_of_nodup_map hkeys ha (hsame.mem_iff.mpr hb) (Nat.le_antisymm hab hba)

/-- Where equal keys have equal numbers and numbers differ, the order by keys is strict. -/
theorem mergeSort_strict {κ ι : Type} [LinearOrder κ] {key : α → κ} {id : α → ι}
    {le : α → α → Bool} {before : α → α → Prop} (hle : ∀ a b, le a b = true ↔ key a ≤ key b)
    (hbefore : ∀ a b, before a b ↔ key a < key b) (hkey : ∀ a b, key a = key b → id a = id b)
    (hids : (l.map id).Nodup) : (l.mergeSort le).Pairwise before := by
  have hsorted : (l.mergeSort le).Pairwise fun a b => le a b = true := by
    refine List.pairwise_mergeSort (fun a b c hab hbc => ?_) (fun a b => ?_) l
    · rw [hle] at hab hbc ⊢
      exact hab.trans hbc
    · rw [Bool.or_eq_true, hle, hle]
      exact le_total (key a) (key b)
  have hdiffer : (l.mergeSort le).Pairwise fun a b => id a ≠ id b := by
    rw [← List.pairwise_map]
    exact ((List.mergeSort_perm l le).map id).nodup_iff.mpr hids
  refine (hsorted.and hdiffer).imp fun {a b} h => (hbefore a b).mpr ?_
  exact lt_of_le_of_ne ((hle a b).mp h.1) fun heq => h.2 (hkey a b heq)

end ExchangeDesk
