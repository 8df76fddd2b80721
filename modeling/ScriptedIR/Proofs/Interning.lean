import Std.Data.String.ToNat
import ScriptedIR.Proofs.Linking

/-!
Interned texts. Whatever is added to a module or linked into it, different texts have different
addresses. The global of a text is found under its name as long as no global from elsewhere took
that name before the module did.
-/

namespace ScriptedIR

theorem Text.Utf8.encode_eq (t : String) : encode t = t.toUTF8.data.toList := by
  rw [String.toUTF8_eq_toByteArray, ← String.utf8Encode_toList, List.utf8Encode,
    List.toList_data_toByteArray]
  rfl

def Constant.ofByte (b : UInt8) : Constant := .int .i8 b.toInt8.toInt64

theorem Constant.ofInt_byte (b : UInt8) : ofInt .i8 (Int64.ofNat b.toNat) = ofByte b := by
  have h : ∀ v : BitVec 8,
      Word.normalize 8 (Int64.ofNat v.toNat) = (UInt8.ofBitVec v).toInt8.toInt64 := by decide
  unfold ofInt ofByte
  rw [← h b.toBitVec]
  rfl

structure Global.StoresText (g : Global) (t : String) : Prop where
  ty : g.ty = .array (t.utf8ByteSize + 1) .i8
  initializer :
    g.initializer = some (.array g.ty ((t.toUTF8.data.toList ++ [0]).map Constant.ofByte))

namespace Module

theorem stringConstant_eq (t : String) :
    stringConstant t = .array (.array (t.utf8ByteSize + 1) .i8)
      ((t.toUTF8.data.toList ++ [0]).map Constant.ofByte) := by
  have hsize : t.toUTF8.data.toList.length = t.utf8ByteSize := rfl
  unfold stringConstant
  rw [Text.Utf8.encode_eq]
  simp only [Constant.ofInt_byte, List.length_map, List.length_append, List.length_singleton, hsize]

def textName (m : Module) (k : Nat) : String := m.name ++ ".str." ++ toString k

theorem textName_inj {m : Module} {j k : Nat} : m.textName j = m.textName k ↔ j = k := by
  unfold textName
  rw [String.append_right_inj]
  exact ⟨Nat.repr_injective, congrArg _⟩

def textGlobal (m : Module) (t : String) : Global :=
  { name := m.textName m.strings.size, ty := (stringConstant t).ty, isConstant := true
    initializer := some (stringConstant t), linkage := .hidden }

theorem textGlobal_storesText (m : Module) (t : String) : (m.textGlobal t).StoresText t := by
  unfold textGlobal
  rw [stringConstant_eq]
  exact ⟨rfl, rfl⟩

theorem intern_cases (m : Module) (t : String) :
    (∃ n g, m.strings[t]? = some n ∧ m.global? n = some g ∧ m.intern t = (g.address, m)) ∨
      (∀ n, m.strings[t]? = some n → m.global? n = none) ∧
        m.intern t = ((m.textGlobal t).address,
          { m.addGlobal (m.textGlobal t) with
            strings := m.strings.insert t (m.textName m.strings.size) }) := by
  unfold intern
  split
  . next g hg =>
    obtain ⟨n, hn, hg⟩ := Option.bind_eq_some_iff.1 hg
    exact .inl ⟨n, g, hn, hg, rfl⟩
  . next hnone =>
    refine .inr ⟨?_, rfl⟩
    intro n hn
    rwa [hn, Option.bind_some] at hnone

inductive Addition where
  | global (g : Global)
  | text (t : String)
  | module (other : Module)

def add (m : Module) : Addition → Module
  | .global g => m.addGlobal g
  | .text t => (m.intern t).2
  | .module other => m.linked other

def addAll (m : Module) (additions : List Addition) : Module := additions.foldl add m

section Tabled

variable {m : Module} {t u n : String}

theorem global?_addGlobal (m : Module) (g : Global) (n : String) :
    (m.addGlobal g).global? n = (m.global? n).or (if g.name = n then some g else none) := by
  unfold global? addGlobal
  rw [List.find?_append, find?_singleton]

/--
The table of texts has one name for each text, taken from those that were given so far, and there is
a global under each of them.
-/
structure Tabled (m : Module) : Prop where
  named : ∀ t n : String, m.strings[t]? = some n →
    (m.global? n).isSome ∧ ∃ k < m.strings.size, n = m.textName k
  injective : ∀ t u n : String, m.strings[t]? = some n → m.strings[u]? = some n → t = u

theorem Tabled.new (name : String) : Tabled { name } := by
  constructor <;> simp

theorem Tabled.of_globals {m' : Module} (h : m.Tabled) (hname : m'.name = m.name)
    (hstrings : m'.strings = m.strings)
    (hglobals : ∀ n, (m.global? n).isSome → (m'.global? n).isSome) : m'.Tabled := by
  constructor
  . intro t n ht
    rw [hstrings] at ht ⊢
    obtain ⟨hsome, k, hk, hn⟩ := h.named t n ht
    refine ⟨hglobals n hsome, k, hk, ?_⟩
    rw [hn]
    unfold textName
    rw [hname]
  . rw [hstrings]
    exact h.injective

theorem Tabled.strings_intern (h : m.Tabled) (t : String) :
    (∃ n g, m.strings[t]? = some n ∧ m.global? n = some g ∧ m.intern t = (g.address, m)) ∨
      m.strings[t]? = none ∧
        m.intern t = ((m.textGlobal t).address,
          { m.addGlobal (m.textGlobal t) with
            strings := m.strings.insert t (m.textName m.strings.size) }) := by
  rcases m.intern_cases t with hfound | ⟨hnone, hnew⟩
  . exact .inl hfound
  . refine .inr ⟨?_, hnew⟩
    cases ht : m.strings[t]? with
    | none => rfl
    | some n =>
      have hsome := (h.named t n ht).1
      rw [hnone n ht] at hsome
      cases hsome

theorem getElem?_insert_text (strings : Names String) (t n u : String) :
    (strings.insert t n)[u]? = if t = u then some n else strings[u]? := by
  rw [Std.ExtTreeMap.getElem?_insert]
  simp

theorem size_insert_text {strings : Names String} (h : strings[t]? = none) (n : String) :
    (strings.insert t n).size = strings.size + 1 := by
  have hnot : strings.contains t = false := by
    rw [← Bool.not_eq_true, ← Std.ExtTreeMap.isSome_getElem?_eq_contains, h]
    simp
  rw [Std.ExtTreeMap.size_insert, if_neg]
  simp [hnot]

theorem Tabled.intern (h : m.Tabled) (t : String) : (m.intern t).2.Tabled := by
  rcases h.strings_intern t with ⟨n, g, -, -, heq⟩ | ⟨hnone, heq⟩
  . rw [heq]
    exact h
  . rw [heq]
    have hsize := size_insert_text hnone (m.textName m.strings.size)
    constructor
    . intro u n hu
      rw [getElem?_insert_text] at hu
      dsimp only
      rw [hsize]
      split at hu
      . cases hu
        refine ⟨?_, m.strings.size, Nat.lt_succ_self _, rfl⟩
        change ((m.addGlobal (m.textGlobal t)).global? _).isSome
        rw [global?_addGlobal]
        simp [textGlobal]
      . obtain ⟨hsome, k, hk, hn⟩ := h.named u n hu
        refine ⟨?_, k, Nat.lt_succ_of_lt hk, hn⟩
        change ((m.addGlobal (m.textGlobal t)).global? n).isSome
        rw [global?_addGlobal]
        simp [hsome]
    . intro u v n hu hv
      rw [getElem?_insert_text] at hu hv
      -- The new name has the number that no text had yet.
      have hfresh (w : String) : m.strings[w]? ≠ some (m.textName m.strings.size) := by
        intro hw
        obtain ⟨-, k, hk, hn⟩ := h.named w _ hw
        exact Nat.ne_of_gt hk (textName_inj.1 hn)
      split at hu
      . next htu =>
        split at hv
        . next htv => exact htu.symm.trans htv
        . cases hu
          exact absurd hv (hfresh v)
      . split at hv
        . cases hv
          exact absurd hu (hfresh u)
        . exact h.injective u v n hu hv

theorem Tabled.add (h : m.Tabled) (a : Addition) : (m.add a).Tabled := by
  cases a with
  | global g =>
    refine h.of_globals rfl rfl ?_
    intro n hn
    change ((m.addGlobal g).global? n).isSome
    rw [global?_addGlobal]
    simp [hn]
  | text t => exact h.intern t
  | module other =>
    refine h.of_globals name_linked strings_linked ?_
    intro n hn
    change ((m.linked other).global? n).isSome
    rcases global?_linked_cases n with hsame | ⟨-, g, -, -, hfound⟩
    . rwa [hsame]
    . rw [hfound]
      rfl

theorem Tabled.addAll (h : m.Tabled) (additions : List Addition) : (m.addAll additions).Tabled := by
  induction additions generalizing m with
  | nil => exact h
  | cons a additions ih => exact ih (h.add a)

theorem Tabled.strings_add (h : m.Tabled) (ht : m.strings[t]? = some n) (a : Addition) :
    (m.add a).strings[t]? = some n := by
  cases a with
  | global g => exact ht
  | module other =>
    change (m.linked other).strings[t]? = some n
    rwa [strings_linked]
  | text u =>
    change (m.intern u).2.strings[t]? = some n
    rcases h.strings_intern u with ⟨_, _, -, -, heq⟩ | ⟨hnone, heq⟩
    . rwa [heq]
    . rw [heq]
      dsimp only
      rw [getElem?_insert_text, if_neg]
      . exact ht
      . rintro rfl
        rw [ht] at hnone
        cases hnone

theorem Tabled.strings_addAll (h : m.Tabled) (ht : m.strings[t]? = some n)
    (additions : List Addition) : (m.addAll additions).strings[t]? = some n := by
  induction additions generalizing m with
  | nil => exact ht
  | cons a additions ih => exact ih (h.add a) (h.strings_add ht a)

theorem name_of_global? {g : Global} (h : m.global? n = some g) : g.name = n := by
  simpa using List.find?_some h

theorem Tabled.intern_address (h : m.Tabled) (t : String) :
    ∃ n ty, (m.intern t).1 = .globalAddr n ty ∧ (m.intern t).2.strings[t]? = some n := by
  rcases h.strings_intern t with ⟨n, g, ht, hg, heq⟩ | ⟨-, heq⟩
  . rw [heq]
    exact ⟨n, .pointer g.ty, by rw [Global.address, name_of_global? hg], ht⟩
  . rw [heq]
    refine ⟨_, _, rfl, ?_⟩
    dsimp only
    rw [getElem?_insert_text, if_pos rfl]
    rfl

end Tabled

section Kept

variable {m : Module} {t n : String}

/--
Whether an addition brings no global under a name that the module has yet to give to a text.
-/
def Addition.Avoids (m : Module) : Addition → Prop
  | .global g => ∀ k, m.strings.size ≤ k → g.name ≠ m.textName k
  | .text _ => True
  | .module other => ∀ g ∈ other.globals, ∀ k, m.strings.size ≤ k → g.name ≠ m.textName k

def Undisturbed (m : Module) : List Addition → Prop
  | [] => True
  | a :: additions => a.Avoids m ∧ Undisturbed (m.add a) additions

structure Kept (m : Module) : Prop where
  tabled : m.Tabled
  stored : ∀ t n : String, m.strings[t]? = some n →
    ∃ g, m.global? n = some g ∧ g.isConstant = true ∧ g.StoresText t
  free : ∀ k, m.strings.size ≤ k → m.global? (m.textName k) = none

theorem Kept.new (name : String) : Kept { name } where
  tabled := .new name
  stored := by simp
  free := by simp [global?]

theorem Kept.of_globals {m' : Module} (h : m.Kept) (htabled : m'.Tabled) (hname : m'.name = m.name)
    (hstrings : m'.strings = m.strings)
    (hstay : ∀ n g, m.global? n = some g → g.isDeclaration = false → m'.global? n = some g)
    (hfree : ∀ k, m.strings.size ≤ k → m'.global? (m.textName k) = none) : m'.Kept where
  tabled := htabled
  stored := by
    intro t n ht
    rw [hstrings] at ht
    obtain ⟨g, hg, hconstant, htext⟩ := h.stored t n ht
    have hdefined : g.isDeclaration = false := by
      rw [Global.isDeclaration, htext.initializer]
      rfl
    exact ⟨g, hstay n g hg hdefined, hconstant, htext⟩
  free := by
    unfold textName at *
    rw [hname, hstrings]
    exact hfree

theorem Kept.intern (h : m.Kept) (t : String) : (m.intern t).2.Kept := by
  have htabled := h.tabled.intern t
  rcases h.tabled.strings_intern t with ⟨n, g, -, -, heq⟩ | ⟨hnone, heq⟩
  . rw [heq]
    exact h
  . rw [heq] at htabled ⊢
    have hsize := size_insert_text hnone (m.textName m.strings.size)
    have hfound (n : String) := m.global?_addGlobal (m.textGlobal t) n
    refine ⟨htabled, ?_, ?_⟩
    . intro u n hu
      change ∃ g, (m.addGlobal (m.textGlobal t)).global? n = some g ∧ _
      rw [hfound]
      rw [getElem?_insert_text] at hu
      split at hu
      . next htu =>
        cases hu
        subst htu
        rw [h.free _ (Nat.le_refl _)]
        exact ⟨m.textGlobal t, by simp [textGlobal], rfl, m.textGlobal_storesText t⟩
      . obtain ⟨g, hg, hstored⟩ := h.stored u n hu
        exact ⟨g, by rw [hg, Option.some_or], hstored⟩
    . intro k hk
      dsimp only at hk
      rw [hsize] at hk
      change (m.addGlobal (m.textGlobal t)).global? (m.textName k) = none
      rw [hfound, h.free k (Nat.le_of_succ_le hk), Option.none_or, if_neg]
      intro hname
      have hlt : m.strings.size = k := textName_inj.1 hname
      omega

theorem Kept.intern_stores (h : m.Kept) (t : String) :
    ∃ g : Global, (m.intern t).1 = g.address ∧ (m.intern t).2.global? g.name = some g ∧
      g.isConstant = true ∧ g.StoresText t := by
  rcases h.tabled.strings_intern t with ⟨n, g, ht, hg, heq⟩ | ⟨-, heq⟩
  . obtain ⟨g', hg', hstored⟩ := h.stored t n ht
    rw [hg] at hg'
    cases hg'
    rw [heq]
    exact ⟨g, rfl, by rwa [name_of_global? hg], hstored⟩
  . rw [heq]
    refine ⟨m.textGlobal t, rfl, ?_, rfl, m.textGlobal_storesText t⟩
    change (m.addGlobal (m.textGlobal t)).global? (m.textName m.strings.size) = _
    rw [global?_addGlobal, h.free _ (Nat.le_refl _), Option.none_or]
    exact if_pos rfl

theorem Kept.add (h : m.Kept) (a : Addition) (ha : a.Avoids m) : (m.add a).Kept := by
  cases a with
  | text t => exact h.intern t
  | global g =>
    refine h.of_globals (h.tabled.add (.global g)) rfl rfl ?_ ?_
    . intro n g' hg' _
      change (m.addGlobal g).global? n = some g'
      rw [global?_addGlobal, hg', Option.some_or]
    . intro k hk
      change (m.addGlobal g).global? _ = none
      rw [global?_addGlobal, h.free k hk, Option.none_or, if_neg (ha k hk)]
  | module other =>
    refine h.of_globals (h.tabled.add (.module other)) name_linked strings_linked ?_ ?_
    . intro n g hg hdefined
      change (m.linked other).global? n = some g
      rcases global?_linked_cases n with hsame | ⟨hnone, -⟩
      . rwa [hsame]
      . rw [globalDefinition?, hg] at hnone
        simp [Option.filter, hdefined] at hnone
    . intro k hk
      change (m.linked other).global? _ = none
      rcases global?_linked_cases (m.textName k) with hsame | ⟨-, g, hg, hname, -⟩
      . rw [hsame]
        exact h.free k hk
      . exact absurd hname (ha g hg k hk)

theorem Kept.addAll (h : m.Kept) {additions : List Addition} (hadd : m.Undisturbed additions) :
    (m.addAll additions).Kept := by
  induction additions generalizing m with
  | nil => exact h
  | cons a additions ih => exact ih (h.add a hadd.1) hadd.2

end Kept

/--
Texts are never mixed up by their addresses. What is found under the address of a text is a constant
array with its bytes and a zero behind them, unless a global from elsewhere came in under a name
that the module was yet to give.
-/
theorem intern_keeps_text (name : String) (additions : List Addition) (t : String) :
    let m := addAll { name } additions
    (Undisturbed { name } additions → ∃ g : Global, (m.intern t).1 = g.address ∧
      (m.intern t).2.global? g.name = some g ∧ g.isConstant = true ∧ g.StoresText t) ∧
    ∀ u later, u ≠ t → ∃ n ty n' ty', (m.intern t).1 = .globalAddr n ty ∧
      (((m.intern t).2.addAll later).intern u).1 = .globalAddr n' ty' ∧ n ≠ n' := by
  intro m
  have htabled : m.Tabled := (Tabled.new name).addAll additions
  refine ⟨fun hadd => ((Kept.new name).addAll hadd).intern_stores t, ?_⟩
  intro u later hne
  have hlater := (htabled.intern t).addAll later
  obtain ⟨n, ty, haddress, hstring⟩ := htabled.intern_address t
  obtain ⟨n', ty', haddress', hstring'⟩ := hlater.intern_address u
  refine ⟨n, ty, n', ty', haddress, haddress', ?_⟩
  -- The first text still has its name when the second one has got its own.
  have hkeeps := hlater.strings_add ((htabled.intern t).strings_addAll hstring later) (.text u)
  rintro rfl
  exact hne ((hlater.intern u).injective u t n hstring' hkeeps)

def squatter : Global := { name := "m.str.0", ty := .i32, initializer := some (.ofInt .i32 7) }

theorem namesake_keeps_text :
    let namesake : Module := { name := "m", globals := [squatter] }
    let additions : List Addition := [.text "no", .module namesake]
    let m := addAll { name := "m" } additions
    Undisturbed { name := "m" } additions ∧ (∃ g : Global, (m.intern "hi").1 = g.address ∧
      (m.intern "hi").2.global? g.name = some g ∧ g.isConstant = true ∧ g.StoresText "hi") ∧
    ∃ n ty n' ty', (m.intern "hi").1 = .globalAddr n ty ∧
      ((m.intern "hi").2.intern "no").1 = .globalAddr n' ty' ∧ n ≠ n' := by
  intro namesake additions m
  have hundisturbed : Undisturbed { name := "m" } additions := by
    refine ⟨trivial, ?_, trivial⟩
    intro g hg k hk hname
    rw [List.mem_singleton.1 hg] at hname
    have hsize : (add { name := "m" } (.text "no")).strings.size = 1 := by decide
    rw [hsize] at hk
    have hzero : textName { name := "m" } 0 = textName { name := "m" } k := hname
    rw [← textName_inj.1 hzero] at hk
    cases hk
  obtain ⟨hkeeps, hdiffer⟩ := intern_keeps_text "m" additions "hi"
  exact ⟨hundisturbed, hkeeps hundisturbed, hdiffer "no" [] (by decide)⟩

/--
A global that is under the name of a text first is found in its place.
-/
theorem squatter_hides_text :
    let m := addAll { name := "m" } [.global squatter]
    (m.intern "hi").1 = .globalAddr "m.str.0" (.pointer (.array 3 .i8)) ∧
      (m.intern "hi").2.global? "m.str.0" = some squatter ∧
      ¬∃ g : Global, (m.intern "hi").1 = g.address ∧
        (m.intern "hi").2.global? g.name = some g ∧ g.StoresText "hi" := by
  intro m
  have haddress : (m.intern "hi").1 = .globalAddr "m.str.0" (.pointer (.array 3 .i8)) := by
    have hty : (stringConstant "hi").ty = .array 3 .i8 := by
      rw [stringConstant_eq]
      rfl
    have hname : textName { name := "m" } 0 = "m.str.0" := by decide
    rw [← hty, ← hname]
    rfl
  have hfound : (m.intern "hi").2.global? "m.str.0" = some squatter := rfl
  refine ⟨haddress, hfound, ?_⟩
  rintro ⟨g, hg, hfound', htext⟩
  rw [haddress] at hg
  obtain ⟨hname, -⟩ := Constant.globalAddr.inj hg
  rw [← hname, hfound] at hfound'
  cases hfound'
  cases htext.ty

end Module

end ScriptedIR
