import ScriptedIR.Script.Session

/-!
The tree of a session. Whatever nodes a session is asked for, each one but the root has a parent that
was made before it and that knows it by its name. Nodes stay what they are, and looking up a name goes
along the way from a node to the root and finds the nearest one of that name.
-/

namespace ScriptedIR

structure Node.Same (n n' : Node) : Prop where
  name : n'.name = n.name
  address : n'.address = n.address
  parent : n'.parent = n.parent
  content : n'.content = n.content

theorem Node.Same.trans {n n' n'' : Node} (h : n.Same n') (h' : n'.Same n'') : n.Same n'' :=
  ⟨h'.name.trans h.name, h'.address.trans h.address, h'.parent.trans h.parent,
    h'.content.trans h.content⟩

def Node.withChild (n : Node) (name : String) (id : Nat) : Node :=
  { n with children := n.children.insert name id, last := some id }

namespace Session

variable {s s' : Session} {kind : NodeKind} {parent id : Nat} {name : String} {p n : Node}

structure Call where
  kind : NodeKind
  parent : Nat
  name : String

def answer (s : Session) (c : Call) : Except ScriptError Nat × Session :=
  s.child c.kind c.parent c.name

def called (s : Session) (c : Call) : Session := (s.answer c).2

def calledAll (s : Session) (calls : List Call) : Session := calls.foldl called s

def made (kind : NodeKind) (parent : Nat) (p : Node) (name : String) : Node :=
  { name, address := childAddress p name, parent := some parent,
    content := .make kind name (childAddress p name) }

def extended (s : Session) (kind : NodeKind) (parent : Nat) (p : Node) (name : String) : Session :=
  ⟨(s.nodes ++ [made kind parent p name]).modify parent (·.withChild name s.nodes.length)⟩

theorem getElem?_extended (hp : s.nodes[parent]? = some p) (kind : NodeKind) (name : String)
    (id : Nat) :
    (s.extended kind parent p name).nodes[id]? =
      if id = s.nodes.length then some (made kind parent p name)
      else if id = parent then some (p.withChild name s.nodes.length)
      else s.nodes[id]? := by
  have hlt : parent < s.nodes.length := (List.getElem?_eq_some_iff.1 hp).1
  unfold extended
  rw [List.getElem?_modify, List.getElem?_append]
  by_cases hid : id < s.nodes.length
  . rw [if_pos hid, if_neg (show id ≠ s.nodes.length by omega)]
    by_cases heq : id = parent
    . simp [heq, hp]
    . simp [heq, Ne.symm heq]
  . have hne : parent ≠ id := by omega
    rw [if_neg hid]
    by_cases heq : id = s.nodes.length
    . simp [heq, heq ▸ hne]
    . have hnone : s.nodes[id]? = none := List.getElem?_eq_none (by omega)
      have hnew : [made kind parent p name][id - s.nodes.length]? = none := by
        apply List.getElem?_eq_none
        rw [List.length_singleton]
        omega
      rw [if_neg heq, if_neg (Ne.symm hne), hnone, hnew]
      rfl

theorem answer_cases (s : Session) (c : Call) :
    s.nodes[c.parent]? = none ∧ s.answer c = (.error (.argument (.unknownNode c.parent)), s) ∨
    ∃ p, s.nodes[c.parent]? = some p ∧
      ((∃ id, p.children[c.name]? = some id ∧ s.answer c =
          (match s.nodes[id]? with
            | none => .error (.argument (.unknownNode id))
            | some n =>
              if n.content.kind = c.kind then .ok id
              else .error (.argument (.alreadyDefined c.name n.content.kind.text)), s)) ∨
        p.children[c.name]? = none ∧
          s.answer c = (.ok s.nodes.length, s.extended c.kind c.parent p c.name)) := by
  unfold answer child node
  cases hp : s.nodes[c.parent]? with
  | none => exact .inl ⟨rfl, rfl⟩
  | some p =>
    refine .inr ⟨p, rfl, ?_⟩
    dsimp only
    cases hid : p.children[c.name]? with
    | none =>
      -- the parent is still where it was
      have hparent (n : Node) : (s.nodes ++ [n])[c.parent]? = some p :=
        List.getElem?_append_left (List.getElem?_eq_some_iff.1 hp).1 ▸ hp
      refine .inr ⟨rfl, ?_⟩
      dsimp only
      rw [hparent]
      rfl
    | some id =>
      refine .inl ⟨id, rfl, ?_⟩
      dsimp only
      cases s.nodes[id]? with
      | none => rfl
      | some n =>
        dsimp only
        split <;> rfl

theorem calledAll_induction {I : Session → Prop} (hs : I s)
    (hstep : ∀ {s parent p name} kind, I s → s.nodes[parent]? = some p → p.children[name]? = none →
      I (s.extended kind parent p name))
    (calls : List Call) : I (s.calledAll calls) := by
  refine List.foldlRecOn calls called hs ?_
  intro s hs c _
  unfold called
  obtain ⟨-, h⟩ | ⟨p, hp, ⟨id, -, h⟩ | ⟨hnew, h⟩⟩ := answer_cases s c
  . rw [h]
    exact hs
  . rw [h]
    exact hs
  . rw [h]
    exact hstep c.kind hs hp hnew

def IsChild (s : Session) (parent id : Nat) : Prop :=
  ∃ n, s.nodes[id]? = some n ∧ n.parent = some parent

def IsChildNamed (s : Session) (parent : Nat) (name : String) (id : Nat) : Prop :=
  ∃ n, s.nodes[id]? = some n ∧ n.parent = some parent ∧ n.name = name

structure Tree (s : Session) : Prop where
  root : ∀ {id n}, s.nodes[id]? = some n → (n.parent = none ↔ id = 0)
  parent_lt : ∀ {parent id}, s.IsChild parent id → parent < id
  registered : ∀ {parent p name id}, s.nodes[parent]? = some p →
    (p.children[name]? = some id ↔ s.IsChildNamed parent name id)
  childless : ∀ {parent p id}, s.nodes[parent]? = some p → p.last = none → ¬ s.IsChild parent id
  last : ∀ {parent p id}, s.nodes[parent]? = some p → p.last = some id →
    s.IsChild parent id ∧ ∀ other, s.IsChild parent other → other ≤ id

theorem IsChildNamed.isChild (h : s.IsChildNamed parent name id) : s.IsChild parent id := by
  obtain ⟨n, hn, hparent, -⟩ := h
  exact ⟨n, hn, hparent⟩

theorem IsChild.lt_length (h : s.IsChild parent id) : id < s.nodes.length := by
  obtain ⟨n, hn, -⟩ := h
  exact (List.getElem?_eq_some_iff.1 hn).1

section Extended

variable (hp : s.nodes[parent]? = some p)

include hp

theorem node_extended (h : (s.extended kind parent p name).nodes[id]? = some n) :
    id = s.nodes.length ∧ n = made kind parent p name ∨
    id = parent ∧ n = p.withChild name s.nodes.length ∨
    id ≠ parent ∧ s.nodes[id]? = some n := by
  rw [getElem?_extended hp] at h
  split at h
  . next hid =>
    cases h
    exact .inl ⟨hid, rfl⟩
  . split at h
    . next hid =>
      cases h
      exact .inr (.inl ⟨hid, rfl⟩)
    . next hid => exact .inr (.inr ⟨hid, h⟩)

theorem same_extended (hn : s.nodes[id]? = some n) (kind : NodeKind) (name : String) :
    ∃ n', (s.extended kind parent p name).nodes[id]? = some n' ∧ n.Same n' := by
  have hlt : id < s.nodes.length := (List.getElem?_eq_some_iff.1 hn).1
  rw [getElem?_extended hp, if_neg (by omega)]
  split
  . next hid =>
    rw [hid, hp] at hn
    cases hn
    exact ⟨_, rfl, rfl, rfl, rfl, rfl⟩
  . exact ⟨n, hn, rfl, rfl, rfl, rfl⟩

theorem same_of_extended (hn : (s.extended kind parent p name).nodes[id]? = some n)
    (hid : id ≠ s.nodes.length) : ∃ n', s.nodes[id]? = some n' ∧ n'.Same n := by
  obtain ⟨hnew, -⟩ | ⟨rfl, rfl⟩ | ⟨-, hn⟩ := node_extended hp hn
  . exact absurd hnew hid
  . exact ⟨p, hp, rfl, rfl, rfl, rfl⟩
  . exact ⟨n, hn, rfl, rfl, rfl, rfl⟩

theorem isChildNamed_extended (kind : NodeKind) (name : String) {q : Nat} {other : String} :
    (s.extended kind parent p name).IsChildNamed q other id ↔
      s.IsChildNamed q other id ∨ q = parent ∧ other = name ∧ id = s.nodes.length := by
  constructor
  . rintro ⟨n, hn, hparent, hname⟩
    obtain ⟨hid, rfl⟩ | ⟨rfl, rfl⟩ | ⟨-, hn⟩ := node_extended hp hn
    . cases hparent
      exact .inr ⟨rfl, hname.symm, hid⟩
    . exact .inl ⟨p, hp, hparent, hname⟩
    . exact .inl ⟨n, hn, hparent, hname⟩
  . rintro (⟨n, hn, hparent, hname⟩ | ⟨rfl, rfl, rfl⟩)
    . obtain ⟨n', hn', hsame⟩ := same_extended hp hn kind name
      exact ⟨n', hn', hsame.parent.trans hparent, hsame.name.trans hname⟩
    . exact ⟨_, (getElem?_extended hp ..).trans (if_pos rfl), rfl, rfl⟩

theorem isChild_extended (kind : NodeKind) (name : String) {q : Nat} :
    (s.extended kind parent p name).IsChild q id ↔
      s.IsChild q id ∨ q = parent ∧ id = s.nodes.length := by
  have hnamed (s : Session) : s.IsChild q id ↔ ∃ other, s.IsChildNamed q other id :=
    ⟨fun ⟨n, hn, hparent⟩ => ⟨n.name, n, hn, hparent, rfl⟩, fun ⟨_, h⟩ => h.isChild⟩
  simp only [hnamed, isChildNamed_extended hp, exists_or]
  simp

end Extended

theorem node_new (h : ({} : Session).nodes[id]? = some n) :
    id = 0 ∧ n = { name := "rls", address := "rls" } := by
  cases id with
  | zero =>
    cases h
    exact ⟨rfl, rfl⟩
  | succ => cases h

namespace Tree

theorem new : Tree {} := by
  have hchild (parent id) : ¬ ({} : Session).IsChild parent id := by
    rintro ⟨n, hn, hparent⟩
    obtain ⟨-, rfl⟩ := node_new hn
    cases hparent
  constructor
  case root =>
    intro id n hn
    obtain ⟨rfl, rfl⟩ := node_new hn
    simp
  case parent_lt => exact fun h => absurd h (hchild _ _)
  case registered =>
    intro parent p name id hp
    obtain ⟨-, rfl⟩ := node_new hp
    exact iff_of_false (by simp) fun h => hchild _ _ h.isChild
  case childless => exact fun _ _ => hchild _ _
  case last =>
    intro parent p id hp hlast
    obtain ⟨-, rfl⟩ := node_new hp
    cases hlast

theorem not_isChild_length (h : s.Tree) : ¬ s.IsChild s.nodes.length id := by
  intro hchild
  have := h.parent_lt hchild
  have := hchild.lt_length
  omega

theorem extended (h : s.Tree) (kind : NodeKind) (hp : s.nodes[parent]? = some p)
    (hnew : p.children[name]? = none) : (s.extended kind parent p name).Tree := by
  have hlt : parent < s.nodes.length := (List.getElem?_eq_some_iff.1 hp).1
  constructor
  case root =>
    intro id n hn
    obtain ⟨hid, rfl⟩ | ⟨rfl, rfl⟩ | ⟨-, hn⟩ := node_extended hp hn
    . exact iff_of_false nofun (by omega)
    . exact (h.root hp : p.parent = none ↔ id = 0)
    . exact h.root hn
  case parent_lt =>
    intro q id hchild
    rcases (isChild_extended hp kind name).1 hchild with hchild | ⟨rfl, rfl⟩
    . exact h.parent_lt hchild
    . exact hlt
  case registered =>
    intro q pq other id hq
    rw [isChildNamed_extended hp]
    obtain ⟨rfl, rfl⟩ | ⟨rfl, rfl⟩ | ⟨hne, hq⟩ := node_extended hp hq
    . have hnone : ¬ s.IsChildNamed s.nodes.length other id := fun hchild =>
        h.not_isChild_length hchild.isChild
      have hne : s.nodes.length ≠ parent := by omega
      simp [made, hnone, hne]
    . rw [← h.registered hp]
      by_cases hname : other = name
      . simp [Node.withChild, hname, hnew, eq_comm]
      . simp [Node.withChild, Std.ExtTreeMap.getElem?_insert, hname, Ne.symm hname]
    . simp [hne, h.registered hq]
  case childless =>
    intro q pq id hq hlast
    rw [isChild_extended hp]
    obtain ⟨rfl, rfl⟩ | ⟨rfl, rfl⟩ | ⟨hne, hq⟩ := node_extended hp hq
    . rintro (hchild | ⟨heq, -⟩)
      . exact h.not_isChild_length hchild
      . omega
    . cases hlast
    . rintro (hchild | ⟨heq, -⟩)
      . exact h.childless hq hlast hchild
      . exact hne heq
  case last =>
    intro q pq id hq hlast
    simp only [isChild_extended hp]
    obtain ⟨rfl, rfl⟩ | ⟨rfl, rfl⟩ | ⟨hne, hq⟩ := node_extended hp hq
    . cases hlast
    . cases hlast
      refine ⟨.inr ⟨rfl, rfl⟩, ?_⟩
      rintro other (hchild | ⟨-, rfl⟩)
      . exact Nat.le_of_lt hchild.lt_length
      . exact Nat.le_refl _
    . obtain ⟨hchild, hmax⟩ := h.last hq hlast
      refine ⟨.inl hchild, ?_⟩
      rintro other (hother | ⟨heq, -⟩)
      . exact hmax other hother
      . exact absurd heq hne

theorem calledAll (h : s.Tree) (calls : List Call) : (s.calledAll calls).Tree :=
  calledAll_induction h (fun kind h hp hnew => h.extended kind hp hnew) calls

end Tree

theorem same_calledAll (hn : s.nodes[id]? = some n) (calls : List Call) :
    ∃ n', (s.calledAll calls).nodes[id]? = some n' ∧ n.Same n' := by
  refine calledAll_induction (I := fun t => ∃ n', t.nodes[id]? = some n' ∧ n.Same n')
    ⟨n, hn, rfl, rfl, rfl, rfl⟩ ?_ calls
  rintro t parent p name kind ⟨n', hn', hsame⟩ hp -
  obtain ⟨n'', hn'', hsame'⟩ := same_extended hp hn' kind name
  exact ⟨n'', hn'', hsame.trans hsame'⟩

section Answers

variable {c : Call} {e : ScriptError}

theorem Tree.of_answer_ok (h : s.Tree) (hc : s.answer c = (.ok id, s')) :
    ∃ n, s'.nodes[id]? = some n ∧ n.parent = some c.parent ∧ n.name = c.name ∧
      n.content.kind = c.kind := by
  obtain ⟨-, heq⟩ | ⟨p, hp, ⟨id', hid, heq⟩ | ⟨-, heq⟩⟩ := answer_cases s c
  . rw [heq] at hc
    cases hc
  . obtain ⟨n, hn, hparent, hname⟩ := (h.registered hp).1 hid
    rw [heq, hn] at hc
    dsimp only at hc
    split at hc
    . next hkind =>
      cases hc
      exact ⟨n, hn, hparent, hname, hkind⟩
    . cases hc
  . rw [heq] at hc
    cases hc
    exact ⟨_, (getElem?_extended hp ..).trans (if_pos rfl), rfl, rfl, Content.kind_make ..⟩

theorem Tree.of_answer_error (h : s.Tree) (hc : s.answer c = (.error e, s')) :
    s' = s ∧ (s.nodes[c.parent]? = none ∨
      ∃ (id : Nat) (n : Node), s.nodes[id]? = some n ∧ n.parent = some c.parent ∧
        n.name = c.name ∧ n.content.kind ≠ c.kind) := by
  obtain ⟨hnone, heq⟩ | ⟨p, hp, ⟨id, hid, heq⟩ | ⟨-, heq⟩⟩ := answer_cases s c
  . rw [heq] at hc
    cases hc
    exact ⟨rfl, .inl hnone⟩
  . obtain ⟨n, hn, hparent, hname⟩ := (h.registered hp).1 hid
    rw [heq, hn] at hc
    dsimp only at hc
    split at hc
    . cases hc
    . next hkind =>
      cases hc
      exact ⟨rfl, .inr ⟨id, n, hn, hparent, hname, hkind⟩⟩
  . rw [heq] at hc
    cases hc

end Answers

/--
The nodes from one up to the root, each the parent of the one before.
-/
inductive Way (s : Session) : Nat → List Nat → Prop
  | root {id : Nat} {n : Node} : s.nodes[id]? = some n → n.parent = none → Way s id [id]
  | up {id parent : Nat} {n : Node} {path : List Nat} : s.nodes[id]? = some n →
      n.parent = some parent → Way s parent path → Way s id (id :: path)

theorem Way.exists_node {path : List Nat} (h : s.Way id path) : ∃ n, s.nodes[id]? = some n := by
  cases h with
  | root hn _ => exact ⟨_, hn⟩
  | up hn _ _ => exact ⟨_, hn⟩

theorem Tree.exists_way (h : s.Tree) (hid : id < s.nodes.length) : ∃ path, s.Way id path := by
  induction id using Nat.strongRecOn with
  | ind id ih =>
    have hn := List.getElem?_eq_getElem hid
    cases hparent : s.nodes[id].parent with
    | none => exact ⟨_, .root hn hparent⟩
    | some parent =>
      have hlt := h.parent_lt ⟨_, hn, hparent⟩
      obtain ⟨path, hpath⟩ := ih parent hlt (by omega)
      exact ⟨_, .up hn hparent hpath⟩

def child? (s : Session) (name : String) (id : Nat) : Option Nat :=
  s.nodes[id]?.bind (·.children[name]?)

theorem Tree.lookup_eq_findSome? (h : s.Tree) (hname : name ≠ "") {path : List Nat}
    (hpath : s.Way id path) : s.lookup name id = path.findSome? (s.child? name) := by
  have hempty : name.isEmpty = false := by simpa using hname
  induction hpath with
  | root hn hparent =>
    rw [lookup]
    simp only [hn, hempty, hparent, List.findSome?_cons, child?, Option.bind_some]
    split <;> simp_all
  | up hn hparent _ ih =>
    have hlt := h.parent_lt ⟨_, hn, hparent⟩
    rw [lookup]
    simp only [hn, hempty, hparent, List.findSome?_cons, child?, Option.bind_some]
    split <;> simp_all

theorem lookup_of_length_le (hid : s.nodes.length ≤ id) (name : String) : s.lookup name id = none := by
  rw [lookup, List.getElem?_eq_none hid]

/--
Whatever a session was asked for:
- its nodes are a tree;
- each node keeps its name, address, parent and content, whatever is asked for next;
- a call that succeeds gives a child of the name and kind that it asks for, and one that fails changes
  nothing and had no parent to go to, or found a child of another kind;
- from each node there is a way to the root. The nearest child of a name on that way is found from the
  node, and nothing is found if there is none or no such node.
-/
theorem reached_tree {calls : List Call} {s : Session} (h : ({} : Session).calledAll calls = s) :
    s.Tree ∧
    (∀ more (id : Nat) (n : Node), s.nodes[id]? = some n →
      ∃ n', (s.calledAll more).nodes[id]? = some n' ∧ n.Same n') ∧
    (∀ c id s', s.answer c = (.ok id, s') → s.called c = s' ∧
      ∃ n, s'.nodes[id]? = some n ∧ n.parent = some c.parent ∧ n.name = c.name ∧
        n.content.kind = c.kind) ∧
    (∀ c e s', s.answer c = (.error e, s') → s' = s ∧ s.called c = s ∧
      (s.nodes[c.parent]? = none ∨
        ∃ (id : Nat) (n : Node), s.nodes[id]? = some n ∧ n.parent = some c.parent ∧
          n.name = c.name ∧ n.content.kind ≠ c.kind)) ∧
    (∀ id, id < s.nodes.length → ∃ path, s.Way id path) ∧
    ∀ name, name ≠ "" →
      (∀ id path, s.Way id path → s.lookup name id = path.findSome? (s.child? name)) ∧
      ∀ id, s.nodes.length ≤ id → s.lookup name id = none := by
  subst h
  have htree := Tree.new.calledAll calls
  refine ⟨htree, ?_, ?_, ?_, ?_, ?_⟩
  . exact fun more id n hn => same_calledAll hn more
  . exact fun c id s' hc => ⟨by rw [called, hc], htree.of_answer_ok hc⟩
  . intro c e s' hc
    obtain ⟨rfl, hwhy⟩ := htree.of_answer_error hc
    exact ⟨rfl, by rw [called, hc], hwhy⟩
  . exact fun id hid => htree.exists_way hid
  . intro name hname
    exact ⟨fun id path hpath => htree.lookup_eq_findSome? hname hpath,
      fun id hid => lookup_of_length_le hid name⟩

def crowded : Session :=
  ({} : Session).calledAll
    [⟨.library, 0, "util"⟩, ⟨.space, 0, "app"⟩, ⟨.program, 2, "main"⟩, ⟨.program, 0, "util"⟩,
      ⟨.library, 9, "lost"⟩, ⟨.library, 2, "util"⟩]

theorem crowded_tree :
    crowded.Tree ∧ crowded.nodes.length = 5 ∧ crowded.called ⟨.program, 0, "util"⟩ = crowded ∧
      crowded.Way 3 [3, 2, 0] ∧ crowded.lookup "util" 3 = some 4 ∧ crowded.lookup "util" 1 = some 1 := by
  obtain ⟨htree, -, -, hfails, -, hlookup⟩ := reached_tree (s := crowded) rfl
  have hway : crowded.Way 3 [3, 2, 0] := .up rfl rfl (.up rfl rfl (.root rfl rfl))
  have hway' : crowded.Way 1 [1, 0] := .up rfl rfl (.root rfl rfl)
  refine ⟨htree, rfl, (hfails _ _ _ rfl).2.1, hway, ?_, ?_⟩
  . rw [(hlookup "util" (by decide)).1 3 _ hway]
    decide +kernel
  . rw [(hlookup "util" (by decide)).1 1 _ hway']
    decide +kernel

end Session

end ScriptedIR
