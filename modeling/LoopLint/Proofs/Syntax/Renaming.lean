import LoopLint.Proofs.Syntax.Bare

/-!
# Renaming the words of a text

A renaming `ρ` gives every word of a text another spelling.  The text becomes longer or shorter by
this, so its syntax tree is not the same tree with other texts: all positions move.  `Tree.Renamed`
says what stays.  The two trees have the same shape, each word of the first is spelled by `ρ` in the
second, and comments and loops keep their rows.

Once positions are taken away and the words of the first tree are spelled by `ρ`, the two trees are
equal (`Tree.Renamed.respelled_eq`).  Both changes are recasts, if `ρ` keeps different words
different and the texts of names and numbers are words (`Tree.Worded`).
-/

namespace LoopLint

variable {ρ : String → String}

/-! ### Words and their spelling -/

/-- Whether the node is a word, given whether it is a leaf. -/
def Label.isWord (leaf : Bool) (l : Label) : Bool :=
  leaf && l.covers && !l.kind.isComment

/-- What is known of a node without its position, words being spelled by `ρ`.  Of the position the
row of a `for` statement is kept, since findings are silenced by rows. -/
def Label.respelled (ρ : String → String) (leaf : Bool) (l : Label) : Label where
  kind := l.kind
  field := l.field
  named := l.named
  range := if l.isWord leaf then ⟨0, 1⟩ else ⟨0, 0⟩
  start := ⟨if l.kind = .forStatement then l.start.row else 0, 0⟩
  stop := ⟨0, 0⟩
  text := if l.kind.isSpelled || l.isWord leaf then ρ l.text else ""

/-- Without positions, just the words cover some text. -/
lemma Label.covers_respelled (leaf : Bool) (l : Label) :
    (l.respelled ρ leaf).covers = l.isWord leaf := by
  cases h : l.isWord leaf with
  | true => simp [covers, respelled, h]
  | false => simp [covers, respelled, h]

namespace Tree

mutual

/-- The tree without positions, its words being spelled by `ρ`. -/
def respelled (ρ : String → String) : Tree → Tree
  | node l cs => node (l.respelled ρ cs.isEmpty) (respelledOf ρ cs)

/-- A row of trees without positions. -/
def respelledOf (ρ : String → String) : List Tree → List Tree
  | [] => []
  | t :: ts => respelled ρ t :: respelledOf ρ ts

end

/-- In a row, the trees lose their positions one by one. -/
lemma respelledOf_eq (ρ : String → String) (ts : List Tree) :
    respelledOf ρ ts = ts.map (respelled ρ) := by
  induction ts with
  | nil => rw [respelledOf, List.map_nil]
  | cons t ts ih => rw [respelledOf, ih, List.map_cons]

/-- The label of a tree loses its position; whether the tree is a leaf decides if it is a word. -/
lemma label_respelled (ρ : String → String) (t : Tree) :
    (t.respelled ρ).label = t.label.respelled ρ t.children.isEmpty := by
  obtain ⟨l, cs⟩ := t
  rw [respelled]
  rfl

mutual

/-- The words are spelled by `ρ`. -/
theorem tokens_respelled (ρ : String → String) : ∀ t : Tree, (t.respelled ρ).tokens = t.tokens.map ρ
  | node l cs => by
    have hcs := tokensOf_respelledOf ρ cs
    rw [respelled]
    cases hl : l.kind.isComment with
    | true =>
      rw [tokens_of_comment hl, tokens_of_comment (l := l.respelled ρ cs.isEmpty) hl, List.map_nil]
    | false =>
      rw [tokens_node hl, tokens_node (l := l.respelled ρ cs.isEmpty) hl, hcs,
        Label.covers_respelled]
      cases cs with
      | cons c cs => simp [respelledOf]
      | nil => cases hcov : l.covers <;> simp [Label.isWord, Label.respelled, respelledOf, hl, hcov]

/-- The words of some trees are spelled by `ρ`. -/
theorem tokensOf_respelledOf (ρ : String → String) :
    ∀ ts : List Tree, tokensOf (respelledOf ρ ts) = (tokensOf ts).map ρ
  | [] => by rw [respelledOf, tokensOf, List.map_nil]
  | t :: ts => by
    rw [respelledOf, tokensOf, tokens_respelled ρ t, tokensOf_respelledOf ρ ts, tokensOf,
      List.map_append]

end

/-- Words are not empty, and each name and each number of the tree is a single word. -/
def Worded (t : Tree) : Prop :=
  ∀ u ∈ t.subtrees, "" ∉ u.tokens ∧ (u.label.kind.isSpelled = true → u.tokens = [u.label.text])

instance (t : Tree) : Decidable t.Worded :=
  inferInstanceAs (Decidable (∀ u ∈ t.subtrees, _ ∧ _))

/-- What holds of the words of a tree holds of those of its children. -/
lemma Worded.of_mem_children {t c : Tree} (h : t.Worded) (hc : c ∈ t.children) : c.Worded :=
  fun u hu => h u (mem_subtrees_of_mem_children hc hu)

end Tree

/-! ### Nodes -/

/-- An ancestor without its position. -/
def Frame.respelled (ρ : String → String) (f : Frame) : Frame :=
  ⟨f.label.respelled ρ false, Tree.respelledOf ρ f.left, Tree.respelledOf ρ f.right⟩

namespace Node

variable {n c p : Node}

/-- The node without its position. -/
def respelled (ρ : String → String) (n : Node) : Node :=
  ⟨n.focus.respelled ρ, n.above.map (Frame.respelled ρ)⟩

/-- The label of a node loses its position. -/
lemma label_respelled (ρ : String → String) (n : Node) :
    (n.respelled ρ).label = n.label.respelled ρ n.focus.children.isEmpty :=
  Tree.label_respelled ρ n.focus

/-- A node stays where it is in its tree. -/
lemma address_respelled (ρ : String → String) (n : Node) : (n.respelled ρ).address = n.address := by
  rw [address, respelled, List.map_map, address]
  refine List.map_congr_left fun f _ => ?_
  simp [Frame.respelled, Tree.respelledOf_eq]

/-- The children of a node without positions are those of the node, without theirs. -/
lemma siblings_respelled (ρ : String → String) (l : Label) (above : List Frame)
    (left ts : List Tree) :
    siblings (l.respelled ρ false) (above.map (Frame.respelled ρ)) (Tree.respelledOf ρ left)
        (Tree.respelledOf ρ ts) = (siblings l above left ts).map (respelled ρ) := by
  induction ts generalizing left with
  | nil => rw [Tree.respelledOf]; rfl
  | cons t ts ih =>
    have ih := ih (t :: left)
    rw [Tree.respelledOf] at ih
    rw [Tree.respelledOf, siblings, ih, siblings]
    rfl

/-- Going down commutes with taking the positions away. -/
lemma children_respelled (ρ : String → String) (n : Node) :
    (n.respelled ρ).children = n.children.map (respelled ρ) := by
  obtain ⟨⟨l, ts⟩, above⟩ := n
  have hrow := siblings_respelled ρ l above [] ts
  cases ts with
  | nil => rfl
  | cons t ts => exact hrow

/-- A parent loses its position like its child and the surroundings of the child. -/
lemma plug_respelled (ρ : String → String) (f : Frame) (t : Tree) :
    (f.plug t).respelled ρ = (f.respelled ρ).plug (t.respelled ρ) := by
  have hrow : (f.left.reverseAux (t :: f.right)).isEmpty = false := by
    rw [List.reverseAux_eq]
    simp
  rw [Frame.plug, Tree.respelled, hrow]
  simp only [Frame.plug, Frame.respelled, Tree.respelledOf_eq, List.reverseAux_eq, List.map_append,
    List.map_reverse, List.map_cons]

/-- Going up commutes with taking the positions away. -/
lemma parent?_respelled (ρ : String → String) (n : Node) :
    (n.respelled ρ).parent? = n.parent?.map (respelled ρ) := by
  obtain ⟨t, above⟩ := n
  cases above with
  | nil => rfl
  | cons f above =>
    change some (⟨(f.respelled ρ).plug (t.respelled ρ), above.map (Frame.respelled ρ)⟩ : Node) =
      some ⟨(f.plug t).respelled ρ, above.map (Frame.respelled ρ)⟩
    rw [plug_respelled]

/-- The node stands in a tree whose names and numbers are words. -/
def Worded (n : Node) : Prop :=
  ∃ t : Tree, t.Worded ∧ n ∈ (ofTree t).preorder

/-- A name or a number is a single word. -/
lemma Worded.tokens_eq (h : n.Worded) (hn : n.kind.isSpelled = true) : n.tokens = [n.text] := by
  obtain ⟨t, ht, hmem⟩ := h
  exact (ht n.focus (focus_mem_subtrees hmem)).2 hn

/-- No word is empty. -/
lemma Worded.ne_empty (h : n.Worded) : ∀ w ∈ n.tokens, w ≠ "" := by
  obtain ⟨t, ht, hmem⟩ := h
  intro w hw heq
  rw [heq] at hw
  exact (ht n.focus (focus_mem_subtrees hmem)).1 hw

/-- The text of a name or a number is not empty. -/
lemma Worded.text_ne_empty (h : n.Worded) (hn : n.kind.isSpelled = true) : n.text ≠ "" := by
  apply h.ne_empty
  rw [h.tokens_eq hn]
  exact List.mem_singleton_self _

end Node

/-- Spelling the words by `ρ`, as a recast.  Different words stay different, and the words that the
linter looks for stay as they are. -/
def Recast.respelled (ρ : String → String) (hinj : Set.InjOn ρ {w | w ≠ ""})
    (hfixed : ∀ w ∈ ["0", "1", "length"], ρ w = w) : Recast where
  map := Node.respelled ρ
  rename := ρ
  words := {w | w ≠ ""}
  Good := Node.Worded
  keeps _ := true
  good_child := by
    rintro n c ⟨t, ht, hn⟩ hc
    exact ⟨t, ht, Node.mem_preorder_trans hn (Node.mem_preorder_of_mem_children hc)⟩
  good_parent := by
    rintro n p ⟨t, ht, hn⟩ hp
    exact ⟨t, ht, Node.mem_preorder_of_mem_children_ofTree hn hp⟩
  keeps_of_not_comment _ := rfl
  keeps_of_field _ _ := rfl
  kind_map n := by rw [Node.kind, Node.label_respelled]; rfl
  field_map n := by rw [Node.label_respelled]; rfl
  named_map n := by rw [Node.label_respelled]; rfl
  children_map n := by rw [Node.children_respelled, List.filter_true]
  parent?_map _ := Node.parent?_respelled ρ _
  text_map {n} _ hn := by
    have hl : n.label.kind.isSpelled = true := hn
    rw [Node.text, Node.label_respelled, Label.respelled, hl]
    rfl
  tokens_map n := Tree.tokens_respelled ρ n.focus
  rename_injOn := hinj
  text_mem_words h hn := h.text_ne_empty hn
  tokens_mem_words h := h.ne_empty
  fixed w hw := by
    refine ⟨?_, hfixed w hw⟩
    rintro rfl
    simp at hw

/-! ### Trees of a text and of the renamed text -/

/-- What becomes of the label of a node when the words of a text are renamed by `ρ`.  Kind, field
and the row of a loop stay; a word is spelled by `ρ`; a comment keeps its text and the row where it
ends. -/
@[mk_iff] structure Label.Renamed (ρ : String → String) (leaf : Bool) (l l' : Label) : Prop where
  kind : l'.kind = l.kind
  field : l'.field = l.field
  named : l'.named = l.named
  row : l.kind = .forStatement → l'.start.row = l.start.row
  word : leaf = true → l.kind.isComment = false →
    l'.covers = l.covers ∧ (l.covers = true → l'.text = ρ l.text)
  comment : l.kind.isComment = true → l'.text = l.text ∧ l'.stop.row = l.stop.row

instance (leaf : Bool) (l l' : Label) : Decidable (Label.Renamed ρ leaf l l') :=
  decidable_of_iff' _ (Label.renamed_iff ρ leaf l l')

/-- Without positions the label of the renamed text is that of the text, spelled by `ρ`. -/
lemma Label.Renamed.respelled_eq {leaf : Bool} {l l' : Label} (h : l.Renamed ρ leaf l')
    (htext : l.kind.isSpelled = true → l'.text = ρ l.text) :
    l'.respelled id leaf = l.respelled ρ leaf := by
  have hword : l'.isWord leaf = l.isWord leaf := by
    unfold isWord
    rw [h.kind]
    cases hleaf : leaf with
    | false => rfl
    | true =>
      cases hk : l.kind.isComment with
      | true => simp
      | false => rw [(h.word hleaf hk).1]
  have htexts : (if l'.kind.isSpelled || l'.isWord leaf then id l'.text else "") =
      if l.kind.isSpelled || l.isWord leaf then ρ l.text else "" := by
    rw [hword, h.kind]
    cases hk : l.kind.isSpelled with
    | true => simpa using htext hk
    | false =>
      cases hw : l.isWord leaf with
      | false => rfl
      | true =>
        rw [isWord, Bool.and_eq_true, Bool.and_eq_true, Bool.not_eq_true'] at hw
        simpa using (h.word hw.1.1 hw.2).2 hw.1.2
  have hrows : (if l'.kind = .forStatement then l'.start.row else 0) =
      if l.kind = .forStatement then l.start.row else 0 := by
    rw [h.kind]
    split
    · rename_i hk
      exact h.row hk
    · rfl
  rw [respelled, respelled, htexts, hrows, hword, h.kind, h.field, h.named]

namespace Tree

mutual

/-- The second tree is that of the first text with its words renamed by `ρ`: it has the same shape,
and the labels correspond. -/
def Renamed (ρ : String → String) : Tree → Tree → Prop
  | node l cs, node l' cs' =>
    l.Renamed ρ cs.isEmpty l' ∧ RenamedAll ρ cs cs'

/-- Two rows of trees correspond one by one. -/
def RenamedAll (ρ : String → String) : List Tree → List Tree → Prop
  | [], [] => True
  | t :: ts, t' :: ts' => Renamed ρ t t' ∧ RenamedAll ρ ts ts'
  | _, _ => False

end

mutual

/-- Whether a tree is that of the renamed text. -/
def decRenamed (ρ : String → String) :
    (t t' : Tree) → Decidable (Renamed ρ t t')
  | node l cs, node l' cs' =>
    have := decRenamedAll ρ cs cs'
    inferInstanceAs
      (Decidable (l.Renamed ρ cs.isEmpty l' ∧ RenamedAll ρ cs cs'))

/-- Whether the trees of a row are those of the renamed text. -/
def decRenamedAll (ρ : String → String) :
    (ts ts' : List Tree) → Decidable (RenamedAll ρ ts ts')
  | [], [] => isTrue trivial
  | t :: ts, t' :: ts' =>
    have := decRenamed ρ t t'
    have := decRenamedAll ρ ts ts'
    inferInstanceAs (Decidable (Renamed ρ t t' ∧ RenamedAll ρ ts ts'))
  | [], _ :: _ => isFalse id
  | _ :: _, [] => isFalse id

end

instance (t t' : Tree) : Decidable (Renamed ρ t t') :=
  decRenamed ρ t t'

variable {t t' : Tree} {ts ts' : List Tree}

/-- Rows that correspond are both empty or neither. -/
theorem RenamedAll.isEmpty_eq : ∀ {ts ts' : List Tree}, RenamedAll ρ ts ts' →
    ts'.isEmpty = ts.isEmpty
  | [], [], _ => rfl
  | _ :: _, _ :: _, _ => rfl

mutual

/-- The words of the second tree are those of the first, spelled by `ρ`. -/
theorem Renamed.tokens_eq : ∀ {t t' : Tree}, Renamed ρ t t' →
    t'.tokens = t.tokens.map ρ
  | node l cs, node l' cs', h => by
    rw [Renamed] at h
    obtain ⟨hl, hcs⟩ := h
    have hrow := hcs.tokensOf_eq
    have hempty := hcs.isEmpty_eq
    cases hk : l.kind.isComment with
    | true => rw [tokens_of_comment hk, tokens_of_comment (by rw [hl.kind, hk]), List.map_nil]
    | false =>
      rw [tokens_node hk, tokens_node (by rw [hl.kind, hk]), hrow, hempty]
      cases hleaf : cs.isEmpty with
      | false => rfl
      | true =>
        obtain ⟨hcovers, htext⟩ := hl.word hleaf hk
        cases hcov : l.covers with
        | false => simp [hcovers, hcov]
        | true => simp [hcovers, hcov, htext hcov]

/-- The words of rows that correspond are renamed by `ρ`. -/
theorem RenamedAll.tokensOf_eq : ∀ {ts ts' : List Tree}, RenamedAll ρ ts ts' →
    tokensOf ts' = (tokensOf ts).map ρ
  | [], [], _ => by rw [tokensOf, List.map_nil]
  | t :: ts, t' :: ts', h => by
    rw [RenamedAll] at h
    rw [tokensOf, tokensOf, h.1.tokens_eq, h.2.tokensOf_eq, List.map_append]

end

/-! ### The common form of both trees -/

mutual

/-- Without positions the second tree is the first one, spelled by `ρ`. -/
theorem Renamed.respelled_eq : ∀ {t t' : Tree}, Renamed ρ t t' → t.Worded →
    t'.Worded → t'.respelled id = t.respelled ρ
  | node l cs, node l' cs', h, hw, hw' => by
    have htokens := h.tokens_eq
    rw [Renamed] at h
    obtain ⟨hl, hcs⟩ := h
    -- The text of a name or a number is its only word.
    have htext : l.kind.isSpelled = true → l'.text = ρ l.text := by
      intro hk
      have hone := (hw _ (self_mem_subtrees _)).2 hk
      have hone' := (hw' _ (self_mem_subtrees _)).2 (by rwa [← hl.kind] at hk)
      rw [hone, hone', List.map_singleton, List.singleton_inj] at htokens
      exact htokens
    have hrow := hcs.respelledOf_eq (fun c hc => hw.of_mem_children hc)
      (fun c hc => hw'.of_mem_children hc)
    rw [respelled, respelled, hrow, hcs.isEmpty_eq, hl.respelled_eq htext]

/-- Rows that correspond have the same form without positions, with the words of the second. -/
theorem RenamedAll.respelledOf_eq : ∀ {ts ts' : List Tree}, RenamedAll ρ ts ts' →
    (∀ t ∈ ts, t.Worded) → (∀ t ∈ ts', t.Worded) → respelledOf id ts' = respelledOf ρ ts
  | [], [], _, _, _ => by rw [respelledOf, respelledOf]
  | t :: ts, t' :: ts', h, hw, hw' => by
    rw [RenamedAll] at h
    rw [List.forall_mem_cons] at hw hw'
    rw [respelledOf, respelledOf, h.1.respelled_eq hw.1 hw'.1, h.2.respelledOf_eq hw.2 hw'.2]

end

end Tree
end LoopLint
