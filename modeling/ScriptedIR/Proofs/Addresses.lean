import ScriptedIR.Proofs.Importing
import ScriptedIR.Proofs.SessionTree
import ScriptedIR.Proofs.Visibility

/-!
Addresses of the nodes of a session. An address has the names on the way from the root in it, less their
spaces and with dots between them. So it tells the parts of these names between dots, but neither their
spaces nor where one name ends and the next one starts.
-/

namespace ScriptedIR

theorem toList_addressOf (name : String) :
    (addressOf name).toList = name.toList.filter (· ≠ ' ') := String.toList_ofList

theorem addressOf_addressOf (name : String) : addressOf (addressOf name) = addressOf name := by
  rw [← String.toList_inj]
  simp only [toList_addressOf, List.filter_filter, Bool.and_self]

namespace Session

variable {s : Session} {kind : NodeKind} {parent id : Nat} {name : String} {p n : Node}
  {path : List Nat}

def parts (name : String) : List (List Char) := (addressOf name).toList.splitOn '.'

theorem parts_addressOf (name : String) : parts (addressOf name) = parts name := by
  unfold parts
  rw [addressOf_addressOf]

theorem parts_childAddress (p : Node) (name : String) :
    parts (childAddress p name) = parts p.address ++ parts name := by
  unfold childAddress
  rw [parts_addressOf]
  unfold parts
  have hjoined : (addressOf (p.address ++ "." ++ name)).toList =
      (addressOf p.address).toList ++ '.' :: (addressOf name).toList := by
    simp [toList_addressOf]
  rw [hjoined]
  exact List.splitOnP_append_cons _ _ (by simp)

theorem eq_of_parts {a b : String} (ha : addressOf a = a) (hb : addressOf b = b)
    (h : parts a = parts b) : a = b := by
  unfold parts at h
  rw [ha, hb] at h
  have hjoined := congrArg (List.intercalate ['.']) h
  rwa [List.intercalate_splitOn, List.intercalate_splitOn, String.toList_inj] at hjoined

structure Addressed (s : Session) : Prop where
  root : ∀ {n : Node}, s.nodes[0]? = some n → n.name = "rls" ∧ n.address = "rls"
  child : ∀ {id parent : Nat} {n p : Node}, s.nodes[id]? = some n → n.parent = some parent →
    s.nodes[parent]? = some p → n.address = childAddress p n.name
  content : ∀ {id : Nat} {n : Node}, s.nodes[id]? = some n →
    n.content = .make n.content.kind n.name n.address

namespace Addressed

theorem new : Addressed {} := by
  constructor
  case root =>
    intro n hn
    obtain ⟨-, rfl⟩ := node_new hn
    exact ⟨rfl, rfl⟩
  case child =>
    intro id parent n p hn hparent
    obtain ⟨-, rfl⟩ := node_new hn
    cases hparent
  case content =>
    intro id n hn
    obtain ⟨-, rfl⟩ := node_new hn
    rfl

theorem extended (h : s.Addressed) (htree : s.Tree) (kind : NodeKind)
    (hp : s.nodes[parent]? = some p) (name : String) :
    (s.extended kind parent p name).Addressed := by
  have hlt : parent < s.nodes.length := (List.getElem?_eq_some_iff.1 hp).1
  constructor
  case root =>
    intro n hn
    obtain ⟨n', hn', hsame⟩ := same_of_extended hp hn (by omega)
    rw [hsame.name, hsame.address]
    exact h.root hn'
  case child =>
    intro id q n pq hn hparent hq
    by_cases hid : id = s.nodes.length
    . subst hid
      rw [getElem?_extended hp, if_pos rfl] at hn
      cases hn
      cases hparent
      obtain ⟨p', hp', hsame⟩ := same_of_extended hp hq (by omega)
      rw [hp] at hp'
      cases hp'
      rw [childAddress, hsame.address]
      rfl
    . obtain ⟨n', hn', hsame⟩ := same_of_extended hp hn hid
      have hparent' : n'.parent = some q := hsame.parent.symm.trans hparent
      have hlt' := htree.parent_lt ⟨n', hn', hparent'⟩
      have hlength := (List.getElem?_eq_some_iff.1 hn').1
      obtain ⟨pq', hq', hsame'⟩ := same_of_extended hp hq (by omega)
      rw [hsame.address, hsame.name, h.child hn' hparent' hq', childAddress, childAddress,
        hsame'.address]
  case content =>
    intro id n hn
    by_cases hid : id = s.nodes.length
    . rw [getElem?_extended hp, if_pos hid] at hn
      cases hn
      exact congrArg (Content.make · _ _) (Content.kind_make ..).symm
    . obtain ⟨n', hn', hsame⟩ := same_of_extended hp hn hid
      rw [hsame.content, hsame.name, hsame.address]
      exact h.content hn'

theorem calledAll (h : s.Addressed) (htree : s.Tree) (calls : List Call) :
    (s.calledAll calls).Tree ∧ (s.calledAll calls).Addressed :=
  calledAll_induction (I := fun s => s.Tree ∧ s.Addressed) ⟨htree, h⟩
    (fun kind h hp hnew => ⟨h.1.extended kind hp hnew, h.2.extended h.1 kind hp _⟩) calls

end Addressed

def names (s : Session) (path : List Nat) : List String :=
  path.reverse.filterMap fun id => s.nodes[id]?.map Node.name

theorem names_cons (hn : s.nodes[id]? = some n) (path : List Nat) :
    s.names (id :: path) = s.names path ++ [n.name] := by
  simp [names, hn]

namespace Addressed

theorem parts_address (h : s.Addressed) (htree : s.Tree) (hpath : s.Way id path)
    (hn : s.nodes[id]? = some n) : parts n.address = (s.names path).flatMap parts := by
  induction hpath generalizing n with
  | root hn' hparent =>
    cases hn.symm.trans hn'
    cases (htree.root hn).1 hparent
    obtain ⟨hname, haddress⟩ := h.root hn
    rw [names_cons hn, hname, haddress]
    exact (List.append_nil _).symm
  | up hn' hparent hpath ih =>
    cases hn.symm.trans hn'
    obtain ⟨p, hp⟩ := hpath.exists_node
    rw [h.child hn hparent hp, parts_childAddress, ih hp, names_cons hn, List.flatMap_append,
      List.flatMap_singleton]

theorem addressOf_address (h : s.Addressed) (htree : s.Tree) (hn : s.nodes[id]? = some n) :
    addressOf n.address = n.address := by
  cases hparent : n.parent with
  | none =>
    cases (htree.root hn).1 hparent
    rw [(h.root hn).2]
    rfl
  | some parent =>
    have hlt := htree.parent_lt ⟨n, hn, hparent⟩
    have hlength := (List.getElem?_eq_some_iff.1 hn).1
    rw [h.child hn hparent (List.getElem?_eq_getElem (by omega)), childAddress, addressOf_addressOf]

theorem address_eq_iff (h : s.Addressed) (htree : s.Tree) {id' : Nat} {path' : List Nat} {n' : Node}
    (hpath : s.Way id path) (hn : s.nodes[id]? = some n)
    (hpath' : s.Way id' path') (hn' : s.nodes[id']? = some n') :
    n.address = n'.address ↔ (s.names path).flatMap parts = (s.names path').flatMap parts := by
  rw [← h.parts_address htree hpath hn, ← h.parts_address htree hpath' hn']
  exact ⟨congrArg parts,
    eq_of_parts (h.addressOf_address htree hn) (h.addressOf_address htree hn')⟩

end Addressed

/--
Names without dots, such that those of the children of a node differ by more than spaces.
-/
structure Plain (s : Session) : Prop where
  dotless : ∀ n ∈ s.nodes, '.' ∉ n.name.toList
  apart : ∀ n ∈ s.nodes, ∀ n' ∈ s.nodes, n.parent = n'.parent →
    addressOf n.name = addressOf n'.name → n.name = n'.name

instance : Decidable s.Plain :=
  decidable_of_iff (_ ∧ _) ⟨fun h => ⟨h.1, h.2⟩, fun h => ⟨h.dotless, h.apart⟩⟩

theorem Plain.parts_name (h : s.Plain) (hn : s.nodes[id]? = some n) :
    parts n.name = [(addressOf n.name).toList] := by
  refine List.splitOn_eq_singleton fun hmem => h.dotless n (List.mem_of_getElem? hn) ?_
  rw [toList_addressOf] at hmem
  exact (List.mem_filter.1 hmem).1

theorem Plain.flatMap_names (h : s.Plain) (hn : s.nodes[id]? = some n) (path : List Nat) :
    (s.names (id :: path)).flatMap parts =
      (s.names path).flatMap parts ++ [(addressOf n.name).toList] := by
  rw [names_cons hn, List.flatMap_append, List.flatMap_singleton, h.parts_name hn]

theorem Plain.flatMap_names_ne_nil (h : s.Plain) (hpath : s.Way id path) :
    (s.names path).flatMap parts ≠ [] := by
  cases hpath with
  | root hn _ => simp [h.flatMap_names hn]
  | up hn _ _ => simp [h.flatMap_names hn]

theorem Plain.eq_of_flatMap_names {id' : Nat} {path' : List Nat} (h : s.Plain) (htree : s.Tree)
    (hpath : s.Way id path) (hpath' : s.Way id' path')
    (heq : (s.names path).flatMap parts = (s.names path').flatMap parts) : id = id' := by
  induction hpath generalizing id' path' with
  | root hn hparent =>
    rw [h.flatMap_names hn] at heq
    cases hpath' with
    | root hn' hparent' => rw [(htree.root hn).1 hparent, (htree.root hn').1 hparent']
    | up hn' _ hpath' =>
      rw [h.flatMap_names hn'] at heq
      exact absurd (List.append_singleton_inj.1 heq).1.symm (h.flatMap_names_ne_nil hpath')
  | up hn hparent hpath ih =>
    rw [h.flatMap_names hn] at heq
    cases hpath' with
    | root hn' _ =>
      rw [h.flatMap_names hn'] at heq
      exact absurd (List.append_singleton_inj.1 heq).1 (h.flatMap_names_ne_nil hpath)
    | up hn' hparent' hpath' =>
      rw [h.flatMap_names hn'] at heq
      -- the parents are the same one, and it has a single child of the name
      obtain ⟨hparents, hlast⟩ := List.append_singleton_inj.1 heq
      cases ih hpath' hparents
      have hname := h.apart _ (List.mem_of_getElem? hn) _ (List.mem_of_getElem? hn')
        (hparent.trans hparent'.symm) (String.toList_inj.1 hlast)
      obtain ⟨p, hp⟩ := hpath.exists_node
      have hid := (htree.registered hp).2 ⟨_, hn, hparent, rfl⟩
      have hid' := (htree.registered hp).2 ⟨_, hn', hparent', rfl⟩
      rw [hname, hid'] at hid
      cases hid
      rfl

theorem Addressed.eq_of_address {id' : Nat} {n' : Node} (h : s.Addressed) (htree : s.Tree)
    (hplain : s.Plain) (hn : s.nodes[id]? = some n) (hn' : s.nodes[id']? = some n')
    (heq : n.address = n'.address) : id = id' := by
  obtain ⟨path, hpath⟩ := htree.exists_way (List.getElem?_eq_some_iff.1 hn).1
  obtain ⟨path', hpath'⟩ := htree.exists_way (List.getElem?_eq_some_iff.1 hn').1
  exact hplain.eq_of_flatMap_names htree hpath hpath'
    ((h.address_eq_iff htree hpath hn hpath' hn').1 heq)

end Session

namespace Library

variable {rules : Rules} {lib lib' : Library} {name : String} {f : FunctionRef}

theorem symbol_edit (lib : Library) (e : Edit) (name : String) :
    (lib.edit e).symbol name = lib.symbol name := by
  cases e with
  | declare other signature =>
    have hmore := MoreGlobals.declare lib other signature
    exact symbol_congr hmore.address hmore.isPrefixed name
  | build other body =>
    have hmore := MoreGlobals.build lib other body
    exact symbol_congr hmore.address hmore.isPrefixed name
  | function other signature body =>
    have hmore := MoreGlobals.declare lib other signature
    rcases function_cases lib other signature body.run with heq | heq
    . rw [edit, heq]
      exact symbol_congr hmore.address hmore.isPrefixed name
    . rw [edit, heq]
      have hmore := hmore.trans (.build _ other body)
      exact symbol_congr hmore.address hmore.isPrefixed name
  | declareExternal | defineMacro | declareGlobal | internText => rfl
  | defineGlobal other init isConstant =>
    obtain ⟨texts, _, rfl, heq | ⟨g, -, -, -, heq⟩⟩ := defineGlobal_cases lib other init isConstant
    . rw [edit, heq]
      rfl
    . rw [edit, heq]
      rfl
  | defineStruct layout =>
    obtain ⟨_, _, heq⟩ := defineStruct_eq layout lib
    rw [edit, heq]
    rfl
  | changeVisibility v names =>
    exact changeVisibility_induction (I := fun lib' => lib'.symbol name = lib.symbol name)
      (fun _ h => h) names rfl

theorem symbol_importFrom (other lib : Library) (name : String) :
    (importFrom other lib).2.symbol name = lib.symbol name := by
  obtain ⟨_, _, _, _, heq⟩ := prepared_eq lib other
  rw [importFrom_prepared, heq]
  rfl

theorem History.symbol (h : History rules lib lib') (name : String) :
    lib'.symbol name = lib.symbol name := by
  induction h with
  | refl => rfl
  | edit _ _ ih => rw [symbol_edit, ih]
  | visible v _ ih => exact ih
  | within _ _ ih ihinner => exact ihinner.trans ih
  | importFrom _ _ _ ih _ => rw [symbol_importFrom, ih]

def Declares (lib : Library) (name : String) (f : FunctionRef) : Prop :=
  ∃ lib' signature, History .any lib lib' ∧ lib'.function? name = none ∧
    (declare name signature lib').1 = .ok f

theorem declare_ok_of_none (hnew : lib.function? name = none) (signature : Ty.Signature) :
    (declare name signature lib).1 = .ok { name, symbol := lib.symbol name, signature } := by
  unfold declare
  simp only [Defining.bind_apply, Defining.get_apply, hnew]
  rfl

theorem Declares.of_none (hnew : lib.function? name = none) (signature : Ty.Signature) :
    lib.Declares name { name, symbol := lib.symbol name, signature } :=
  ⟨lib, signature, .refl, hnew, declare_ok_of_none hnew signature⟩

theorem Declares.symbol (h : lib.Declares name f) : f.symbol = lib.symbol name := by
  obtain ⟨lib', signature, hhistory, hnew, hf⟩ := h
  rw [declare_ok_of_none hnew] at hf
  cases hf
  exact hhistory.symbol name

end Library

namespace Session

variable {s : Session} {id id' : Nat} {n n' : Node} {lib lib' : Library} {name : String}
  {f f' : FunctionRef}

theorem Addressed.symbol_library (h : s.Addressed) (hn : s.nodes[id]? = some n)
    (hlib : n.content = .library lib) (name : String) :
    lib.symbol name = n.address ++ "." ++ name := by
  have hcontent := h.content hn
  rw [hlib] at hcontent
  cases hcontent
  rfl

theorem Addressed.symbol_eq_iff (h : s.Addressed)
    (hn : s.nodes[id]? = some n) (hlib : n.content = .library lib) (hf : lib.Declares name f)
    (hn' : s.nodes[id']? = some n') (hlib' : n'.content = .library lib')
    (hf' : lib'.Declares name f') :
    f.symbol = f'.symbol ↔ n.address = n'.address := by
  rw [hf.symbol, hf'.symbol, h.symbol_library hn hlib, h.symbol_library hn' hlib',
    String.append_left_inj, String.append_left_inj]

/--
Whatever a session was asked for:
- two nodes have the same address if and only if the names on their ways from the root have the same
  parts;
- functions of one name in two libraries have the same symbol if and only if the libraries have the same
  address;
- with plain names, two nodes have different addresses, and functions of one name in two libraries have
  different symbols.
-/
theorem reached_addresses {calls : List Call} {s : Session} (h : ({} : Session).calledAll calls = s) :
    (∀ (id id' : Nat) (n n' : Node), s.nodes[id]? = some n → s.nodes[id']? = some n' →
      ∃ path path', s.Way id path ∧ s.Way id' path' ∧
        (n.address = n'.address ↔
          (s.names path).flatMap parts = (s.names path').flatMap parts)) ∧
    (∀ (id id' : Nat) (n n' : Node) (lib lib' : Library) (name : String) (f f' : FunctionRef),
      s.nodes[id]? = some n → n.content = .library lib → lib.Declares name f →
      s.nodes[id']? = some n' → n'.content = .library lib' → lib'.Declares name f' →
      (f.symbol = f'.symbol ↔ n.address = n'.address)) ∧
    (s.Plain → ∀ (id id' : Nat) (n n' : Node), s.nodes[id]? = some n → s.nodes[id']? = some n' →
      id ≠ id' →
      n.address ≠ n'.address ∧
      ∀ lib lib' name f f', n.content = .library lib → lib.Declares name f →
        n'.content = .library lib' → lib'.Declares name f' → f.symbol ≠ f'.symbol) := by
  subst h
  obtain ⟨htree, haddressed⟩ := Addressed.new.calledAll Tree.new calls
  refine ⟨?_, ?_, ?_⟩
  . intro id id' n n' hn hn'
    obtain ⟨path, hpath⟩ := htree.exists_way (List.getElem?_eq_some_iff.1 hn).1
    obtain ⟨path', hpath'⟩ := htree.exists_way (List.getElem?_eq_some_iff.1 hn').1
    exact ⟨path, path', hpath, hpath', haddressed.address_eq_iff htree hpath hn hpath' hn'⟩
  . exact fun _ _ _ _ _ _ _ _ _ hn hlib hf hn' hlib' hf' =>
      haddressed.symbol_eq_iff hn hlib hf hn' hlib' hf'
  . intro hplain id id' n n' hn hn' hne
    have hapart : n.address ≠ n'.address := fun heq =>
      hne (haddressed.eq_of_address htree hplain hn hn' heq)
    refine ⟨hapart, fun lib lib' name f f' hlib hf hlib' hf' heq => hapart ?_⟩
    exact (haddressed.symbol_eq_iff hn hlib hf hn' hlib' hf').1 heq

def sheltered : Session :=
  ({} : Session).calledAll
    [⟨.library, 0, "big ints"⟩, ⟨.space, 0, "app"⟩, ⟨.library, 2, "big ints"⟩, ⟨.program, 2, "main"⟩]

theorem sheltered_addresses :
    sheltered.Plain ∧ ∃ n n' lib lib' f f',
      sheltered.nodes[1]? = some n ∧ n.content = .library lib ∧ lib.Declares "add" f ∧
      sheltered.nodes[3]? = some n' ∧ n'.content = .library lib' ∧ lib'.Declares "add" f' ∧
      n.address ≠ n'.address ∧ f.symbol ≠ f'.symbol := by
  have hplain : sheltered.Plain := by decide +kernel
  obtain ⟨-, -, hapart⟩ := reached_addresses (s := sheltered) rfl
  obtain ⟨haddress, hsymbol⟩ := hapart hplain 1 3 _ _ rfl rfl (by decide)
  have hdeclares (lib : Library) (hnew : lib.function? "add" = none) :=
    Library.Declares.of_none hnew ⟨.void, [], false⟩
  exact ⟨hplain, _, _, _, _, _, _, rfl, rfl, hdeclares _ rfl, rfl, rfl, hdeclares _ rfl, haddress,
    hsymbol _ _ _ _ _ rfl (hdeclares _ rfl) rfl (hdeclares _ rfl)⟩

def Collide (s : Session) (id id' : Nat) : Prop :=
  ∃ n n' lib lib' name f f',
    s.nodes[id]? = some n ∧ n.content = .library lib ∧ lib.Declares name f ∧
    s.nodes[id']? = some n' ∧ n'.content = .library lib' ∧ lib'.Declares name f' ∧
    n.address = n'.address ∧ f.symbol = f'.symbol

def blurred : Session :=
  ({} : Session).calledAll
    [⟨.library, 0, "ab"⟩, ⟨.library, 0, "a b"⟩, ⟨.space, 0, "a"⟩, ⟨.library, 3, "b"⟩,
      ⟨.library, 0, "a.b"⟩]

/--
Neither a space nor a dot in a name keeps libraries apart.
-/
theorem blurred_collide : blurred.Collide 1 2 ∧ blurred.Collide 4 5 := by
  have hdeclares (lib : Library) (hnew : lib.function? "add" = none) :=
    Library.Declares.of_none hnew ⟨.void, [], false⟩
  constructor
  . exact ⟨_, _, _, _, _, _, _, rfl, rfl, hdeclares _ rfl, rfl, rfl, hdeclares _ rfl, rfl, rfl⟩
  . exact ⟨_, _, _, _, _, _, _, rfl, rfl, hdeclares _ rfl, rfl, rfl, hdeclares _ rfl, rfl, rfl⟩

end Session

end ScriptedIR
