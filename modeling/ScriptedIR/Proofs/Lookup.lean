import ScriptedIR.Function

/-!
Lists whose elements are found by a key: blocks by their number, symbols by their name. As long as
the keys are distinct, an element is found under its key exactly if it is in the list.
-/

namespace ScriptedIR

variable {α κ : Type} {key : α → κ} {change : α → α}

theorem map_key_modifyFirst {test : α → Bool} (h : ∀ a, test a → key (change a) = key a)
    (as : List α) : (modifyFirst test change as).map key = as.map key := by
  induction as with
  | nil => rfl
  | cons a as ih =>
    rw [modifyFirst]
    split
    . next ha => simp [h a ha]
    . simp [ih]

theorem mem_modifyFirst {test : α → Bool} {a : α} {as : List α} (ha : a ∈ as)
    (hne : as.find? test ≠ some a) : a ∈ modifyFirst test change as := by
  induction as with
  | nil => cases ha
  | cons b as ih =>
    rw [modifyFirst]
    rw [List.find?_cons] at hne
    split
    . next hb =>
      rw [hb] at hne
      rcases List.mem_cons.1 ha with rfl | ha
      . exact absurd rfl hne
      . exact List.mem_cons_of_mem _ ha
    . next hb =>
      rw [Bool.not_eq_true] at hb
      rw [hb] at hne
      rcases List.mem_cons.1 ha with rfl | ha
      . exact List.mem_cons_self
      . exact List.mem_cons_of_mem _ (ih ha hne)

theorem of_mem_modifyFirst {test : α → Bool} {a : α} {as : List α}
    (ha : a ∈ modifyFirst test change as) : a ∈ as ∨ ∃ b ∈ as, test b ∧ a = change b := by
  induction as with
  | nil => cases ha
  | cons b as ih =>
    rw [modifyFirst] at ha
    split at ha
    . next hb =>
      rcases List.mem_cons.1 ha with rfl | ha
      . exact .inr ⟨b, List.mem_cons_self, hb, rfl⟩
      . exact .inl (List.mem_cons_of_mem _ ha)
    . rcases List.mem_cons.1 ha with rfl | ha
      . exact .inl List.mem_cons_self
      . rcases ih ha with ha | ⟨c, hc, htest, rfl⟩
        . exact .inl (List.mem_cons_of_mem _ ha)
        . exact .inr ⟨c, List.mem_cons_of_mem _ hc, htest, rfl⟩

theorem modifyFirst_eq_self {test : α → Bool} {a : α} {as : List α} (h : as.find? test = some a) :
    modifyFirst test (fun _ => a) as = as := by
  induction as with
  | nil => rfl
  | cons b as ih =>
    rw [modifyFirst]
    rw [List.find?_cons] at h
    split
    . next hb =>
      rw [hb] at h
      cases h
      rfl
    . next hb =>
      rw [Bool.not_eq_true] at hb
      rw [hb] at h
      rw [ih h]

variable [DecidableEq κ]

theorem find?_key_eq_some_iff {as : List α} (h : (as.map key).Nodup) {k : κ} {a : α} :
    as.find? (key · = k) = some a ↔ a ∈ as ∧ key a = k := by
  induction as with
  | nil => simp
  | cons c as ih =>
    rw [List.map_cons, List.nodup_cons] at h
    rw [List.find?_cons]
    by_cases hc : key c = k
    . simp only [hc, decide_true, Option.some.injEq, List.mem_cons]
      constructor
      . rintro rfl
        exact ⟨.inl rfl, hc⟩
      . rintro ⟨rfl | ha, hk⟩
        . rfl
        . exact absurd (List.mem_map.2 ⟨a, ha, hk.trans hc.symm⟩) h.1
    . simp only [hc, decide_false, ih h.2, List.mem_cons]
      constructor
      . rintro ⟨ha, hk⟩
        exact ⟨.inr ha, hk⟩
      . rintro ⟨rfl | ha, hk⟩
        . exact absurd hk hc
        . exact ⟨ha, hk⟩

theorem find?_key_eq_none_iff {as : List α} {k : κ} :
    as.find? (key · = k) = none ↔ k ∉ as.map key := by
  simp [List.find?_eq_none]

theorem nodup_key_concat {as : List α} {a : α} (h : (as.map key).Nodup)
    (ha : as.find? (key · = key a) = none) : ((as ++ [a]).map key).Nodup := by
  rw [List.map_append, List.map_singleton, List.nodup_append]
  refine ⟨h, by simp, ?_⟩
  intro k hk k' hk' heq
  rw [List.mem_singleton.1 hk'] at heq
  exact find?_key_eq_none_iff.1 ha (heq ▸ hk)

theorem find?_modifyFirst {k : κ} (h : ∀ a, key a = k → key (change a) = k) (other : κ)
    (as : List α) :
    (modifyFirst (key · = k) change as).find? (key · = other) =
      if other = k then (as.find? (key · = k)).map change
      else as.find? (key · = other) := by
  induction as with
  | nil => simp [modifyFirst]
  | cons a as ih =>
    by_cases ha : key a = k
    . by_cases hother : other = k
      . simp [modifyFirst, ha, h a ha, hother]
      . simp [modifyFirst, ha, h a ha, hother, Ne.symm hother]
    . by_cases hother : key a = other
      . subst hother
        simp [modifyFirst, ha]
      . simp [modifyFirst, ha, hother, ih]

end ScriptedIR
