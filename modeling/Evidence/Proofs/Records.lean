import Mathlib
import Evidence.Record

namespace Evidence.Record

variable {β γ : Type}

theorem put_of_not_mem {key : String} {r : Record β} (h : key ∉ keys r) (x : β) :
    put key x r = r ++ [(key, x)] := by
  induction r with
  | nil => rfl
  | cons field r ih =>
      rw [keys, List.map_cons, List.mem_cons, not_or] at h
      rw [put, if_neg (Ne.symm h.1), ih h.2, List.cons_append]

theorem foldl_put_of_nodup {r pairs : Record β} (h : (keys (r ++ pairs)).Nodup) :
    pairs.foldl (fun r p => put p.1 p.2 r) r = r ++ pairs := by
  induction pairs generalizing r with
  | nil => rw [List.foldl_nil, List.append_nil]
  | cons p pairs ih =>
      have hnot : p.1 ∉ keys r := by
        intro hmem
        rw [keys, List.map_append, List.nodup_append] at h
        exact h.2.2 p.1 hmem p.1 (by simp) rfl
      rw [List.foldl_cons, put_of_not_mem hnot, ih (by simpa using h), List.append_assoc,
        List.singleton_append]

theorem collect_of_nodup {pairs : List (String × β)} (h : (keys pairs).Nodup) :
    collect pairs = pairs := foldl_put_of_nodup (r := []) h

theorem arrange_perm (r : Record β) : (arrange r).Perm r := by
  have hsplit := List.filter_append_perm (fun p : String × β => (index? p.1).isSome) r
  simp only [Option.not_isSome] at hsplit
  exact ((List.mergeSort_perm _ _).append_right _).trans hsplit

theorem ofPairs_perm {pairs : List (String × β)} (h : (keys pairs).Nodup) :
    (ofPairs pairs).Perm pairs := by
  rw [ofPairs, collect_of_nodup h]
  exact arrange_perm pairs

theorem arrange_append (xs : Record β) {ys : Record β}
    (hindexed : ∀ p ∈ xs, (index? p.1).isSome = true)
    (hsorted : xs.Pairwise fun p q => (index? p.1).getD 0 ≤ (index? q.1).getD 0)
    (hnamed : ∀ p ∈ ys, (index? p.1).isNone = true) : arrange (xs ++ ys) = xs ++ ys := by
  have hxs : xs.filter (fun p => (index? p.1).isNone) = [] :=
    List.filter_eq_nil_iff.2 fun p hp => by
      rw [← Option.not_isSome, hindexed p hp]
      simp
  have hys : ys.filter (fun p => (index? p.1).isSome) = [] :=
    List.filter_eq_nil_iff.2 fun p hp => by
      rw [← Option.not_isNone, hnamed p hp]
      simp
  simp only [arrange, List.filter_append, List.filter_eq_self.2 hindexed,
    List.filter_eq_self.2 hnamed, hxs, hys, List.append_nil, List.nil_append]
  rw [List.mergeSort_of_pairwise (hsorted.imp decide_eq_true)]

theorem ofPairs_of_named {pairs : List (String × β)} (h : (keys pairs).Nodup)
    (hnamed : ∀ key ∈ keys pairs, (index? key).isNone = true) : ofPairs pairs = pairs := by
  rw [ofPairs, collect_of_nodup h]
  exact arrange_append [] (by simp) .nil (List.forall_mem_map.1 hnamed)

theorem arrange_arrange (r : Record β) : arrange (arrange r) = arrange r := by
  refine arrange_append _ ?_ ?_ ?_
  · exact fun p hp => (List.mem_filter.1 (List.mem_mergeSort.1 hp)).2
  · refine (List.pairwise_mergeSort ?_ ?_ _).imp of_decide_eq_true
    · exact fun _ _ _ h h' => decide_eq_true ((of_decide_eq_true h).trans (of_decide_eq_true h'))
    · intro p q
      simpa using le_total ((index? p.1).getD 0) ((index? q.1).getD 0)
  · exact fun p hp => (List.mem_filter.1 hp).2

theorem ofPairs_ofPairs {pairs : List (String × β)} (h : (keys pairs).Nodup) :
    ofPairs (ofPairs pairs) = ofPairs pairs := by
  have hnodup : (keys (ofPairs pairs)).Nodup := ((ofPairs_perm h).map _).nodup_iff.2 h
  rw [ofPairs, collect_of_nodup hnodup]
  exact arrange_arrange _

section Map

variable (g : β → γ)

theorem put_map (key : String) (x : β) (r : Record β) :
    (put key x r).map (fun p => (p.1, g p.2)) = put key (g x) (r.map fun p => (p.1, g p.2)) := by
  induction r with
  | nil => rfl
  | cons field r ih =>
      rw [put, List.map_cons, put]
      split_ifs with h
      · rfl
      · rw [List.map_cons, ih]

theorem foldl_put_map (pairs : List (String × β)) (r : Record β) :
    (pairs.foldl (fun r p => put p.1 p.2 r) r).map (fun p => (p.1, g p.2)) =
      (pairs.map fun p => (p.1, g p.2)).foldl (fun r p => put p.1 p.2 r)
        (r.map fun p => (p.1, g p.2)) := by
  induction pairs generalizing r with
  | nil => rfl
  | cons p pairs ih => rw [List.foldl_cons, ih, put_map, List.map_cons, List.foldl_cons]

theorem arrange_map (r : Record β) :
    (arrange r).map (fun p => (p.1, g p.2)) = arrange (r.map fun p => (p.1, g p.2)) := by
  rw [arrange, arrange, List.map_append, List.filter_map, List.filter_map]
  congr 1
  exact List.map_mergeSort fun _ _ _ _ => rfl

theorem ofPairs_map (pairs : List (String × β)) :
    (ofPairs pairs).map (fun p => (p.1, g p.2)) = ofPairs (pairs.map fun p => (p.1, g p.2)) := by
  rw [ofPairs, arrange_map]
  exact congrArg arrange (foldl_put_map g pairs [])

end Map

end Evidence.Record
