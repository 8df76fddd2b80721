import ScriptedIR.Proofs.Members

/-!
Reading text from memory. Cells are read one behind the other until there is a zero. They all stand in
one row, the allocation or the aggregate that the pointer leads into, so that reading ends at the end
of that row at the latest and no other row has a part in it.
-/

namespace ScriptedIR

theorem shiftLast_append_singleton (amount : Int) (path : List Int) (i : Int) :
    shiftLast amount (path ++ [i]) = path ++ [i + amount] := by
  induction path with
  | nil => rfl
  | cons j path ih =>
    cases path with
    | nil => rfl
    | cons k path => exact congrArg (j :: ·) ih

theorem Pointer.offset_succ (p : Pointer) (k : Nat) :
    (p.offset 1).offset k = p.offset (k + 1 : Nat) := by
  cases p with
  | null => rfl
  | memory alloc path =>
    rcases path.eq_nil_or_concat' with rfl | ⟨front, i, rfl⟩
    . rfl
    . simp only [offset, shiftLast_append_singleton]
      rw [Int.add_assoc, Int.add_comm 1, Int.natCast_succ]

namespace Datum

def Spells (cells : List Datum) (words : List Int64) : Prop :=
  0 ∉ words ∧ ∃ rest, cells = words.map int ++ int 0 :: rest

theorem not_spells_nil (words : List Int64) : ¬ Spells [] words := by
  rintro ⟨-, rest, h⟩
  simp at h

theorem spells_zero {cells : List Datum} {words : List Int64} :
    Spells (int 0 :: cells) words ↔ words = [] := by
  constructor
  . rintro ⟨hne, rest, h⟩
    cases words with
    | nil => rfl
    | cons w words =>
      cases h
      simp at hne
  . rintro rfl
    exact ⟨by simp, cells, rfl⟩

theorem spells_cons {v : Int64} (hv : v ≠ 0) {cells : List Datum} {words : List Int64} :
    Spells (int v :: cells) words ↔ ∃ tail, words = v :: tail ∧ Spells cells tail := by
  constructor
  . rintro ⟨hne, rest, h⟩
    cases words with
    | nil =>
      cases h
      exact absurd rfl hv
    | cons w words =>
      cases h
      exact ⟨words, rfl, fun hmem => hne (List.mem_cons_of_mem _ hmem), rest, rfl⟩
  . rintro ⟨tail, rfl, hne, rest, rfl⟩
    refine ⟨?_, rest, rfl⟩
    rw [List.mem_cons, not_or]
    exact ⟨hv.symm, hne⟩

theorem not_spells_of_not_int {d : Datum} (hd : ∀ v, d ≠ int v) (cells : List Datum)
    (words : List Int64) : ¬ Spells (d :: cells) words := by
  rintro ⟨-, rest, h⟩
  cases words with
  | nil =>
    cases h
    exact hd 0 rfl
  | cons w words =>
    cases h
    exact hd w rfl

theorem follow_append_singleton {cells row : List Datum} {path : List Int}
    (h : follow cells path = .ok (.aggregate row)) (i : Int) :
    follow cells (path ++ [i]) = follow row [i] := by
  fun_induction follow cells path with
  | case1 | case2 | case4 | case6 => cases h
  | case3 cells j d hj =>
    cases h
    simp only [List.singleton_append, follow, hj]
  | case5 cells j k rest members hj ih =>
    rw [← ih h]
    simp only [List.cons_append, follow, hj]

end Datum

theorem drop_toNat_eq_cons {row : List α} {i : Int} {a : α} (h : member? row i = some a) :
    row.drop i.toNat = a :: row.drop (i + 1).toNat := by
  obtain ⟨hpos, -⟩ := lt_length_of_member? h
  rw [member?, if_pos hpos] at h
  obtain ⟨hlt, rfl⟩ := List.getElem?_eq_some_iff.1 h
  rw [show (i + 1).toNat = i.toNat + 1 by omega]
  exact List.drop_eq_getElem_cons hlt

namespace Memory

/--
The row that the last entry of a pointer counts in, and that entry, in range or not. The row is a live
allocation, or the members of an aggregate inside of one.
-/
inductive Siblings (m : Memory) : Pointer → List Datum → Int → Prop where
  | allocation {alloc : Nat} {row : List Datum} (i : Int) :
      m.allocations[alloc]? = some (some row) → Siblings m (.memory alloc [i]) row i
  | aggregate {alloc : Nat} {path : List Int} {row : List Datum} (i : Int) :
      m.load (.memory alloc path) = .ok (.aggregate row) →
      Siblings m (.memory alloc (path ++ [i])) row i

/--
A run of the loop that reads bytes, with the pointers that it loads through. Nothing in it says that
there is a run from every pointer.
-/
inductive Reads (m : Memory) : Pointer → List Pointer → Except RunError (List UInt8) → Prop where
  | zero {p : Pointer} : m.load p = .ok (.int 0) → Reads m p [p] (.ok [])
  | byte {p : Pointer} {v : Int64} {visited : List Pointer} {result : Except RunError (List UInt8)} :
      m.load p = .ok (.int v) → v ≠ 0 → Reads m (p.offset 1) visited result →
      Reads m p (p :: visited) (result.map (v.toUInt64.toUInt8 :: ·))
  | other {p : Pointer} {d : Datum} : m.load p = .ok d → (∀ v, d ≠ .int v) →
      Reads m p [p] (.error (.invalidPointer (.notAByte p d)))
  | fault {p : Pointer} {e : RunError} : m.load p = .error e → Reads m p [p] (.error e)

variable {m m' : Memory} {p : Pointer} {row : List Datum} {i : Int} {d : Datum}

namespace Siblings

theorem load_eq (h : m.Siblings p row i) :
    m.load p =
      match member? row i with
      | some d => .ok d
      | none => .error (.invalidPointer (.outOfBounds p)) := by
  cases h with
  | allocation i hcells =>
    simp only [load, Memory.row, hcells, Pointer.path, Datum.follow]
    cases member? row i <;> rfl
  | @aggregate alloc path row i hload =>
    obtain ⟨cells, hcells, hfollow⟩ := load_eq_ok_iff.1 hload
    simp only [load, Memory.row, hcells, Pointer.path, Datum.follow_append_singleton hfollow,
      Datum.follow]
    cases member? row i <;> rfl

theorem load_eq_ok_iff (h : m.Siblings p row i) : m.load p = .ok d ↔ member? row i = some d := by
  rw [h.load_eq]
  cases member? row i <;> simp

theorem offset (h : m.Siblings p row i) (amount : Int) :
    m.Siblings (p.offset amount) row (i + amount) := by
  cases h with
  | allocation i hcells => exact .allocation _ hcells
  | aggregate i hload =>
    rw [Pointer.offset, shiftLast_append_singleton]
    exact .aggregate _ hload

end Siblings

theorem exists_siblings_of_load (h : m.load p = .ok d) : ∃ row i, m.Siblings p row i := by
  cases p with
  | null => cases h
  | memory alloc path =>
    obtain ⟨cells, hcells, hfollow⟩ := load_eq_ok_iff.1 h
    rcases path.eq_nil_or_concat' with rfl | ⟨front, i, rfl⟩
    . cases hfollow
    . cases front with
      | nil => exact ⟨cells, i, .allocation i hcells⟩
      | cons j front =>
        obtain ⟨whole, hwhole, hget⟩ := (Datum.follow_append front [i]).1 hfollow
        cases whole with
        | aggregate row => exact ⟨row, i, .aggregate i (load_eq_ok_iff.2 ⟨cells, hcells, hwhole⟩)⟩
        | _ => cases hget

theorem exists_reads (m : Memory) (p : Pointer) : ∃ visited, m.Reads p visited (m.readBytes p) := by
  fun_induction readBytes m p with
  | case1 p e hload => exact ⟨_, .fault hload⟩
  | case2 p hload => exact ⟨_, .zero hload⟩
  | case3 p v hload hv bytes hrest ih =>
    obtain ⟨visited, h⟩ := ih
    rw [hrest] at h
    exact ⟨_, .byte hload hv h⟩
  | case4 p v hload hv e hrest ih =>
    obtain ⟨visited, h⟩ := ih
    rw [hrest] at h
    exact ⟨_, .byte hload hv h⟩
  | case5 p d hd hload => exact ⟨_, .other hload hd⟩

namespace Reads

variable {visited : List Pointer} {result : Except RunError (List UInt8)}

theorem unique (h : m.Reads p visited result) {visited' : List Pointer}
    {result' : Except RunError (List UInt8)} (h' : m.Reads p visited' result') :
    visited = visited' ∧ result = result' := by
  induction h generalizing visited' result' with
  | zero hload => cases h' <;> grind
  | byte hload hv _ ih => cases h' <;> grind
  | other hload hd => cases h' <;> grind
  | fault hload => cases h' <;> grind

theorem visited_eq (h : m.Reads p visited result) :
    visited = (List.range visited.length).map fun k : Nat => p.offset k := by
  induction h with
  | zero | other | fault => simp [Pointer.offset_zero]
  | @byte p v visited result hload hv _ ih =>
    rw [List.length_cons, List.range_succ_eq_map, List.map_cons, List.map_map]
    congr 1
    . exact p.offset_zero.symm
    . rw [ih]
      simp [Function.comp_def, Pointer.offset_succ]

theorem length_le (h : m.Reads p visited result) (hrow : m.Siblings p row i) :
    visited.length ≤ (row.length - i).toNat + 1 := by
  induction h generalizing i with
  | zero | other | fault => simp
  | byte hload hv _ ih =>
    have hlt := lt_length_of_member? (hrow.load_eq_ok_iff.1 hload)
    have hrest := ih (hrow.offset 1)
    rw [List.length_cons]
    omega

theorem transfer (h : m.Reads p visited result) (hrow : m.Siblings p row i)
    (hrow' : m'.Siblings p row i) : m'.Reads p visited result := by
  induction h generalizing i with
  | zero hload => exact .zero (hrow'.load_eq ▸ hrow.load_eq ▸ hload)
  | byte hload hv _ ih =>
    exact .byte (hrow'.load_eq ▸ hrow.load_eq ▸ hload) hv (ih (hrow.offset 1) (hrow'.offset 1))
  | other hload hd => exact .other (hrow'.load_eq ▸ hrow.load_eq ▸ hload) hd
  | fault hload => exact .fault (hrow'.load_eq ▸ hrow.load_eq ▸ hload)

theorem eq_ok_iff (h : m.Reads p visited result) (hrow : m.Siblings p row i) {bytes : List UInt8} :
    result = .ok bytes ↔ 0 ≤ i ∧ ∃ words, Datum.Spells (row.drop i.toNat) words ∧
      bytes = words.map fun w => w.toUInt64.toUInt8 := by
  -- the induction is along the run; each byte moves the pointer on by one cell of the same row
  induction h generalizing i bytes with
  | zero hload =>
    have hi := hrow.load_eq_ok_iff.1 hload
    simp [drop_toNat_eq_cons hi, Datum.spells_zero, (lt_length_of_member? hi).1, eq_comm]
  | @byte p v visited result hload hv _ ih =>
    have hi := hrow.load_eq_ok_iff.1 hload
    obtain ⟨hpos, -⟩ := lt_length_of_member? hi
    have hpos' : 0 ≤ i + 1 := by omega
    have hrest (tail : List UInt8) : result = .ok tail ↔
        ∃ words, Datum.Spells (row.drop (i + 1).toNat) words ∧
          tail = words.map fun w => w.toUInt64.toUInt8 := by
      simpa only [hpos', true_and] using ih (hrow.offset 1)
    simp only [drop_toNat_eq_cons hi, Datum.spells_cons hv, hpos, true_and]
    constructor
    . intro hok
      cases result with
      | error e => cases hok
      | ok tail =>
        obtain ⟨words, hwords, rfl⟩ := (hrest tail).1 rfl
        cases hok
        exact ⟨v :: words, ⟨words, rfl, hwords⟩, rfl⟩
    . rintro ⟨_, ⟨words, rfl, hwords⟩, rfl⟩
      rw [(hrest _).2 ⟨words, hwords, rfl⟩]
      rfl
  | other hload hd =>
    have hi := hrow.load_eq_ok_iff.1 hload
    simp [drop_toNat_eq_cons hi, Datum.not_spells_of_not_int hd]
  | @fault p e hload =>
    constructor
    . rintro ⟨⟩
    . rintro ⟨hpos, words, hspells, -⟩
      have hnone : member? row i = none := by
        cases hi : member? row i with
        | none => rfl
        | some d =>
          rw [hrow.load_eq_ok_iff.2 hi] at hload
          cases hload
      rw [member?, if_pos hpos, List.getElem?_eq_none_iff] at hnone
      rw [List.drop_eq_nil_of_le hnone] at hspells
      exact absurd hspells (Datum.not_spells_nil words)

end Reads

theorem readBytes_of_load_error {e : RunError} (h : m.load p = .error e) :
    m.readBytes p = .error e := by
  obtain ⟨visited, hreads⟩ := m.exists_reads p
  exact (hreads.unique (.fault h)).2

theorem readText_eq_ok_iff (m : Memory) (p : Pointer) (text : String) :
    m.readText p = .ok text ↔
      ∃ row i words, m.Siblings p row i ∧ 0 ≤ i ∧ Datum.Spells (row.drop i.toNat) words ∧
        text = Text.Utf8.decode (words.map fun w => w.toUInt64.toUInt8) := by
  obtain ⟨visited, hreads⟩ := m.exists_reads p
  unfold readText
  constructor
  . intro h
    cases hload : m.load p with
    | error e =>
      rw [readBytes_of_load_error hload] at h
      cases h
    | ok d =>
      obtain ⟨row, i, hrow⟩ := exists_siblings_of_load hload
      cases hbytes : m.readBytes p with
      | error e =>
        rw [hbytes] at h
        cases h
      | ok bytes =>
        obtain ⟨hpos, words, hwords, rfl⟩ := (hreads.eq_ok_iff hrow).1 hbytes
        rw [hbytes] at h
        cases h
        exact ⟨row, i, words, hrow, hpos, hwords, rfl⟩
  . rintro ⟨row, i, words, hrow, hpos, hwords, rfl⟩
    rw [(hreads.eq_ok_iff hrow).2 ⟨hpos, words, hwords, rfl⟩]
    rfl

/--
Reading loads through a pointer and those behind it, one by one, and it always ends. All that it loads
stands in the row of the pointer, at the end of which it stops at the latest, and nothing else decides
what is read. It succeeds exactly if there are words behind the pointer in that row and a zero behind
them, and gives the text of the low bytes of these words. A pointer outside of all rows fails at once.
-/
theorem readText_within_row (m : Memory) (p : Pointer) :
    ∃ n, m.Reads p ((List.range n).map fun k : Nat => p.offset k) (m.readBytes p) ∧
      (∀ row i, m.Siblings p row i → n ≤ (row.length - i).toNat + 1 ∧
        (∀ k : Nat, k < n → ∀ d, m.load (p.offset k) = .ok d → member? row (i + k) = some d) ∧
        ∀ m' : Memory, m'.Siblings p row i → m'.readText p = m.readText p) ∧
      ((∀ row i, ¬ m.Siblings p row i) →
        n = 1 ∧ ∃ e, m.load p = .error e ∧ m.readText p = .error e) ∧
      ∀ text, m.readText p = .ok text ↔
        ∃ row i words, m.Siblings p row i ∧ 0 ≤ i ∧ Datum.Spells (row.drop i.toNat) words ∧
          text = Text.Utf8.decode (words.map fun w => w.toUInt64.toUInt8) := by
  obtain ⟨visited, hreads⟩ := m.exists_reads p
  have hvisited := hreads.visited_eq
  refine ⟨visited.length, hvisited ▸ hreads, ?_, ?_, m.readText_eq_ok_iff p⟩
  . intro row i hrow
    refine ⟨hreads.length_le hrow, ?_, ?_⟩
    . intro k hk d hload
      exact (hrow.offset k).load_eq_ok_iff.1 hload
    . intro m' hrow'
      obtain ⟨visited', hreads'⟩ := m'.exists_reads p
      unfold readText
      rw [(hreads'.unique (hreads.transfer hrow hrow')).2]
  . intro hnone
    cases hload : m.load p with
    | ok d =>
      obtain ⟨row, i, hrow⟩ := exists_siblings_of_load hload
      exact absurd hrow (hnone row i)
    | error e =>
      obtain ⟨rfl, hbytes⟩ := hreads.unique (.fault hload)
      refine ⟨rfl, e, rfl, ?_⟩
      rw [readText, hbytes]
      rfl

def shelf (neighbour : Datum) : Memory :=
  ⟨#[some [.aggregate [.int 104, .int 361, .int 0, .int 5], neighbour]]⟩

theorem shelf_within_row :
    (shelf (.int 0)).readText (.memory 0 [0, 0]) = .ok "hi" ∧
    (shelf (.int 0)).readText (.memory 0 [0, 3]) = (shelf .void).readText (.memory 0 [0, 3]) ∧
    ∃ e, (shelf .void).readText .null = .error e := by
  have hpair := @Siblings.aggregate (shelf (.int 0)) 0 [0] _ 0 rfl
  have hlast (neighbour : Datum) := @Siblings.aggregate (shelf neighbour) 0 [0] _ 3 rfl
  obtain ⟨_, -, -, -, htext⟩ := readText_within_row (shelf (.int 0)) (.memory 0 [0, 0])
  obtain ⟨_, -, hrow, -⟩ := readText_within_row (shelf .void) (.memory 0 [0, 3])
  obtain ⟨_, -, -, hnone, -⟩ := readText_within_row (shelf .void) .null
  obtain ⟨-, e, -, he⟩ := hnone nofun
  refine ⟨?_, ?_, e, he⟩
  . exact (htext "hi").2
      ⟨_, 0, [104, 361], hpair, by decide, ⟨by decide, [.int 5], rfl⟩, by decide⟩
  . exact (hrow _ 3 (hlast .void)).2.2 _ (hlast (.int 0))

end Memory

end ScriptedIR
