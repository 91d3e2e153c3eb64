import Mathlib.Tactic

/-!
Rebuilding extensional tree maps and sets from the lists they iterate over.

* `ofList_toList` for maps and sets: inserting the entries of a map in order
  gives the map back;
* `ofList_keyed`: the same when only the values are kept and each value
  carries its key;
* `alter_comm`, `alter_alter`, `alter_congr`: how changes of single entries
  compose.
-/

universe u v

namespace Std.ExtTreeMap

variable {α : Type u} {β : Type v} {cmp : α → α → Ordering} [TransCmp cmp] [LawfulEqCmp cmp]

/-- Inserting the entries of a map in order gives the map back. -/
lemma ofList_toList (t : ExtTreeMap α β cmp) : ofList t.toList cmp = t := by
  classical
  ext k v
  cases h : t[k]? with
  | some w =>
      have hmem : (k, w) ∈ t.toList := mem_toList_iff_getElem?_eq_some.mpr h
      rw [getElem?_ofList_of_mem (ReflCmp.compare_self) distinct_keys_toList hmem]
  | none =>
      have hnot : ¬ (ofList t.toList cmp)[k]?.isSome := by
        intro hs
        obtain ⟨w, hw⟩ := Option.isSome_iff_exists.mp hs
        have hk : k ∈ ofList t.toList cmp := by
          rw [mem_iff_isSome_getElem?]; exact hs
        let _ : BEq α := instBEqOfDecidableEq
        rw [mem_ofList, List.contains_iff_mem, map_fst_toList_eq_keys, mem_keys,
          mem_iff_isSome_getElem?, h] at hk
        exact absurd hk (by simp)
      rw [Option.not_isSome_iff_eq_none.mp hnot]

/-- Inserting the values of a map under the keys they carry gives the map back. -/
lemma ofList_keyed (t : ExtTreeMap α β cmp) (key : β → α)
    (hkey : ∀ k v, t[k]? = some v → key v = k) :
    ofList ((t.toList.map Prod.snd).map fun v => (key v, v)) cmp = t := by
  have hlist : (t.toList.map Prod.snd).map (fun v => (key v, v)) = t.toList := by
    rw [List.map_map]
    refine (List.map_congr_left fun kv hkv => ?_).trans (List.map_id _)
    have hk := hkey kv.1 kv.2 (mem_toList_iff_getElem?_eq_some.mp hkv)
    simp [hk]
  rw [hlist, ofList_toList]

/-! ### Pointwise equations -/

section

variable {γ : Type v} (t : ExtTreeMap α β cmp)

lemma map_insert (f : β → γ) (k : α) (v : β) :
    (t.insert k v).map (fun _ => f) = (t.map fun _ => f).insert k (f v) := by
  refine ext_getElem? fun a => ?_
  rw [getElem?_map, getElem?_insert, getElem?_insert, getElem?_map]
  split <;> rfl

lemma map_erase (f : β → γ) (k : α) :
    (t.erase k).map (fun _ => f) = (t.map fun _ => f).erase k := by
  refine ext_getElem? fun a => ?_
  rw [getElem?_map, getElem?_erase, getElem?_erase, getElem?_map]
  split <;> rfl

lemma insert_comm {k k' : α} (h : k ≠ k') (v w : β) :
    (t.insert k v).insert k' w = (t.insert k' w).insert k v := by
  refine ext_getElem? fun a => ?_
  simp only [getElem?_insert, LawfulEqCmp.compare_eq_iff_eq]
  by_cases hk : k = a
  · subst hk
    simp [Ne.symm h]
  · simp [hk]

/-- What is inserted was there. -/
lemma insert_eq_self {k : α} {v : β} (h : t[k]? = some v) : t.insert k v = t := by
  refine ext_getElem? fun a => ?_
  rw [getElem?_insert]
  split
  · next hk => rw [← LawfulEqCmp.eq_of_compare hk, h]
  · rfl

/-- Two changes at different keys commute. -/
lemma alter_comm {k k' : α} (h : k ≠ k') (f g : Option β → Option β) :
    (t.alter k f).alter k' g = (t.alter k' g).alter k f := by
  refine ext_getElem? fun a => ?_
  simp only [getElem?_alter, LawfulEqCmp.compare_eq_iff_eq]
  by_cases hk : k = a
  · subst hk
    simp [Ne.symm h]
  · by_cases hk' : k' = a
    · subst hk'
      simp [h]
    · simp [hk, hk']

/-- Two changes at one key are one change. -/
lemma alter_alter (k : α) (f g : Option β → Option β) :
    (t.alter k f).alter k g = t.alter k fun o => g (f o) := by
  refine ext_getElem? fun a => ?_
  simp only [getElem?_alter, LawfulEqCmp.compare_eq_iff_eq]
  by_cases hk : k = a
  · simp [hk]
  · simp [hk]

/-- A change is determined by what it makes of the entry that is there. -/
lemma alter_congr {k : α} {f g : Option β → Option β} (h : f t[k]? = g t[k]?) :
    t.alter k f = t.alter k g := by
  refine ext_getElem? fun a => ?_
  simp only [getElem?_alter, LawfulEqCmp.compare_eq_iff_eq, h]

lemma alter_eq_self {k : α} {f : Option β → Option β} (h : f t[k]? = t[k]?) :
    t.alter k f = t := by
  refine ext_getElem? fun a => ?_
  simp only [getElem?_alter, LawfulEqCmp.compare_eq_iff_eq, h]
  split
  · next hk => rw [LawfulEqCmp.eq_of_compare hk]
  · rfl

lemma alter_eq_insert {k : α} {v : β} {f : Option β → Option β} (h : f t[k]? = some v) :
    t.alter k f = t.insert k v := by
  refine ext_getElem? fun a => ?_
  simp only [getElem?_alter, getElem?_insert, LawfulEqCmp.compare_eq_iff_eq, h]

lemma alter_eq_erase {k : α} {f : Option β → Option β} (h : f t[k]? = none) :
    t.alter k f = t.erase k := by
  refine ext_getElem? fun a => ?_
  simp only [getElem?_alter, getElem?_erase, LawfulEqCmp.compare_eq_iff_eq, h]

end

end Std.ExtTreeMap

namespace Std.ExtTreeSet

variable {α : Type u} {cmp : α → α → Ordering} [TransCmp cmp] [LawfulEqCmp cmp]

/-- Inserting the elements of a set in order gives the set back. -/
lemma ofList_toList (t : ExtTreeSet α cmp) : ofList t.toList cmp = t := by
  classical
  let _ : BEq α := instBEqOfDecidableEq
  ext k
  rw [mem_ofList, List.contains_iff_mem, mem_toList]

/-! ### Equations between sets -/

variable (t : ExtTreeSet α cmp)

lemma insert_comm (a b : α) : (t.insert a).insert b = (t.insert b).insert a := by
  refine ext_mem fun k => ?_
  simp only [mem_insert, LawfulEqCmp.compare_eq_iff_eq]
  exact or_left_comm

lemma erase_comm (a b : α) : (t.erase a).erase b = (t.erase b).erase a := by
  refine ext_mem fun k => ?_
  rw [mem_erase, mem_erase, mem_erase, mem_erase]
  exact and_left_comm

lemma insert_erase_comm {a b : α} (h : a ≠ b) : (t.insert a).erase b = (t.erase b).insert a := by
  refine ext_mem fun k => ?_
  simp only [mem_erase, mem_insert, ne_eq, LawfulEqCmp.compare_eq_iff_eq]
  by_cases hk : a = k
  · subst hk
    simp [Ne.symm h]
  · simp [hk]

lemma erase_eq_self {a : α} (h : a ∉ t) : t.erase a = t := by
  refine ext_mem fun k => ?_
  simp only [mem_erase, ne_eq, LawfulEqCmp.compare_eq_iff_eq]
  refine ⟨And.right, fun hk => ⟨fun heq => h (heq ▸ hk), hk⟩⟩

omit [LawfulEqCmp cmp] in
lemma exists_min? {a : α} (h : a ∈ t) : ∃ m, t.min? = some m := by
  cases hmin : t.min? with
  | some m => exact ⟨m, rfl⟩
  | none =>
      rw [min?_eq_none_iff] at hmin
      rw [hmin] at h
      simp at h

/-- The least element stays the least when another one goes. -/
lemma min?_erase_of_ne {a m : α} (hm : t.min? = some m) (h : a ≠ m) :
    (t.erase a).min? = some m := by
  rw [min?_erase_eq_of_not_compare_eq_min?, hm]
  intro km hkm
  obtain rfl : m = km := by simpa [hm] using hkm
  simpa using h

end Std.ExtTreeSet
