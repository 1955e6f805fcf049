import ContentQuery.Proofs.FullText.Matching
import ContentQuery.Proofs.Tree.WellFormed

/-! # Searching a node in all its properties

A search in all properties of a node looks at their texts put together, so its words are those of the
first property, then those of the second, and so on. A row of words occurs in them if it occurs in one
property, or if it runs over from one property into a later one; the second way is open to phrases
only, and where it is the only one the node is found although none of its properties is.
-/

namespace ContentQuery.FullText

open Naming Number

/-! ## Rows in lists put together -/

section Rows

variable {α : Type}

/-- A row begins in one of the lists and ends in a later one. -/
def RunsOver (row : List α) (lists : List (List α)) : Prop :=
  ∃ before first between last after head tail,
    lists = before ++ first :: (between ++ last :: after) ∧ head ≠ [] ∧ tail ≠ [] ∧
      head <:+ first ∧ tail <+: last ∧ row = head ++ (between.flatten ++ tail)

/-- A row with which lists put together begin ends in one of them. -/
theorem prefix_flatten_iff {row : List α} (hrow : row ≠ []) (lists : List (List α)) :
    row <+: lists.flatten ↔ ∃ before last after tail, lists = before ++ last :: after ∧
      tail ≠ [] ∧ tail <+: last ∧ row = before.flatten ++ tail := by
  constructor
  · intro h
    induction lists generalizing row with
    | nil => exact absurd (List.prefix_nil.mp h) hrow
    | cons first rest ih =>
      rw [List.flatten_cons] at h
      -- the row ends within the first list, or the list is its beginning
      rcases List.prefix_or_prefix_of_prefix h (List.prefix_append first rest.flatten) with
        hfirst | ⟨tail, rfl⟩
      · exact ⟨[], first, rest, row, rfl, hrow, hfirst, rfl⟩
      · by_cases htail : tail = []
        · subst htail
          rw [List.append_nil] at hrow ⊢
          exact ⟨[], first, rest, first, rfl, hrow, List.prefix_rfl, rfl⟩
        · obtain ⟨before, last, after, tail', rfl, hne, hlast, rfl⟩ :=
            ih htail ((List.prefix_append_right_inj first).mp h)
          exact ⟨first :: before, last, after, tail', rfl, hne, hlast, by simp⟩
  · rintro ⟨before, last, after, tail, rfl, -, ⟨rest, rfl⟩, rfl⟩
    exact ⟨rest ++ after.flatten, by simp⟩

/-- A row that runs over a border still does so behind further lists. -/
theorem RunsOver.cons {row : List α} {lists : List (List α)} (h : RunsOver row lists)
    (xs : List α) : RunsOver row (xs :: lists) := by
  obtain ⟨before, first, between, last, after, head, tail, rfl, hrest⟩ := h
  exact ⟨xs :: before, first, between, last, after, head, tail, rfl, hrest⟩

/-- What runs over from one list into a later one is a part of the lists put together. -/
theorem RunsOver.infix_flatten {row : List α} {lists : List (List α)} (h : RunsOver row lists) :
    row <:+: lists.flatten := by
  obtain ⟨before, first, between, last, after, head, tail, rfl, -, -, ⟨front, rfl⟩, ⟨rest, rfl⟩,
    rfl⟩ := h
  exact ⟨before.flatten ++ front, rest ++ after.flatten, by simp⟩

/-- A part of lists put together is a part of one of them or runs over. -/
theorem infix_flatten_iff {row : List α} (hrow : row ≠ []) (lists : List (List α)) :
    row <:+: lists.flatten ↔ (∃ list ∈ lists, row <:+: list) ∨ RunsOver row lists := by
  constructor
  · intro h
    induction lists with
    | nil => exact absurd (List.infix_nil.mp h) hrow
    | cons first rest ih =>
      rw [List.flatten_cons, List.infix_append_iff_ne_nil] at h
      -- the row lies in the first list, in the others, or over the border between them
      rcases h with hfirst | hrest | ⟨head, tail, hhead, htail, rfl, hfirst, hrest⟩
      · exact .inl ⟨first, List.mem_cons_self, hfirst⟩
      · rcases ih hrest with ⟨list, hlist, hpart⟩ | hover
        · exact .inl ⟨list, List.mem_cons_of_mem first hlist, hpart⟩
        · exact .inr (hover.cons first)
      · obtain ⟨between, last, after, tail, rfl, hne, hlast, rfl⟩ :=
          (prefix_flatten_iff htail rest).mp hrest
        exact .inr ⟨[], first, between, last, after, head, tail, rfl, hhead, hne, hfirst, hlast, rfl⟩
  · rintro (⟨list, hlist, hpart⟩ | hover)
    · obtain ⟨before, after, rfl⟩ := List.append_of_mem hlist
      obtain ⟨front, rest, rfl⟩ := hpart
      exact ⟨before.flatten ++ front, rest ++ after.flatten, by simp⟩
    · exact hover.infix_flatten

/-- One word does not run over. -/
theorem not_runsOver_singleton (w : α) (lists : List (List α)) : ¬ RunsOver [w] lists := by
  rintro ⟨before, first, between, last, after, head, tail, -, hhead, htail, -, -, hrow⟩
  have hlength := congrArg List.length hrow
  have := List.length_pos_iff.mpr hhead
  have := List.length_pos_iff.mpr htail
  simp only [List.length_singleton, List.length_append] at hlength
  omega

end Rows

/-! ## The text of a node -/

/-- The words of a value that is searched. -/
def wordsOfValue : Value → List String
  | .string text => words text
  | _ => []

/-- The words of joined strings are those of each string, one after the other. -/
theorem words_textOfValues (vs : List Value) :
    words (textOfValues vs) = vs.flatMap wordsOfValue := by
  induction vs with
  | nil => decide +kernel
  | cons v vs ih =>
    rw [List.flatMap_cons, ← ih, textOfValues, List.map_cons, String.join_cons, ← textOfValues]
    cases v with
    | string text => exact words_append_space text _
    | _ => exact congrArg words (String.empty_append)

/-- The words of values put together are the words of one list after those of the other. -/
theorem words_textOfValues_flatten (lists : List (List Value)) :
    words (textOfValues lists.flatten) =
      (lists.map fun vs => words (textOfValues vs)).flatten := by
  simp only [words_textOfValues]
  induction lists with
  | nil => rfl
  | cons vs lists ih => rw [List.flatten_cons, List.flatMap_append, ih, List.map_cons,
      List.flatten_cons]

variable {t : Tree} {n : NodeId} {node : Node}

/-- The words of a property of a node. -/
def wordsOfProperty (node : Node) (name : Name) : List String :=
  words (textOfValues (node.properties.values name))

/-- The words of each property of a node. -/
def wordsOfProperties (node : Node) : List (List String) :=
  node.properties.names.map (wordsOfProperty node)

/-- The values of properties of a node can be read. -/
theorem mapM_propertyValues (hnode : t.node n = .ok node) (names : List Name) :
    names.mapM (fun name => (t.propertyValues n name).mapError SearchError.index) =
      .ok (names.map node.properties.values) := by
  refine mapM_eq_ok_iff.mpr (List.forall₂_map_right_iff.mpr (List.forall₂_same.mpr ?_))
  intro name _
  rw [Tree.propertyValues, hnode]
  rfl

theorem textOfNode_property (hnode : t.node n = .ok node) (name : Name) :
    textOfNode t n (some name) = .ok (textOfValues (node.properties.values name)) := by
  refine bind_eq_ok_iff.mpr ⟨[name], rfl,
    bind_eq_ok_iff.mpr ⟨_, mapM_propertyValues hnode [name], ?_⟩⟩
  rw [List.map_singleton, List.flatten_singleton]
  rfl

/-- The text of a whole node joins the values of all its properties, in the order of their names. -/
theorem textOfNode_all (hnode : t.node n = .ok node) :
    textOfNode t n none =
      .ok (textOfValues (node.properties.names.map node.properties.values).flatten) := by
  have hnames : (t.propertyNames n).mapError SearchError.index = .ok node.properties.names := by
    rw [Tree.propertyNames, hnode]
    rfl
  exact bind_eq_ok_iff.mpr ⟨_, hnames,
    bind_eq_ok_iff.mpr ⟨_, mapM_propertyValues hnode node.properties.names, rfl⟩⟩

/-- Its words are those of the properties, one property after the other. -/
theorem words_textOfNode_all (node : Node) :
    words (textOfValues (node.properties.names.map node.properties.values).flatten) =
      (wordsOfProperties node).flatten := by
  rw [words_textOfValues_flatten, List.map_map, wordsOfProperties]
  rfl

/-! ## Searches for one term -/

variable {expression : String} {term : Term}

/-- A query of one term that is not excluded matches the texts with the words of the term. -/
theorem isMatch_term_iff (hread : readExpression expression = .ok ⟨[[term]]⟩)
    (hterm : term.excluded = false) (text : String) :
    Query.isMatch ⟨[[term]]⟩ text = true ↔ term.words <:+: words text := by
  rw [Query.isMatch_iff_satisfies (isWordy_of_readExpression hread)]
  simp [satisfies_cons_iff, satisfies_nil, hterm]

/-- A search for one term matches it with the text of the node. -/
theorem search_eq (hread : readExpression expression = .ok ⟨[[term]]⟩) (s : SelectorName)
    {property : Option Name} {text : String} (htext : textOfNode t n property = .ok text) :
    termMatch.search t ⟨s, n, property, expression⟩ = .ok (Query.isMatch ⟨[[term]]⟩ text) :=
  termMatch_search hread htext

/-- A property is found by the words of the term in its own words. -/
theorem search_property_iff (hread : readExpression expression = .ok ⟨[[term]]⟩)
    (hterm : term.excluded = false) (hnode : t.node n = .ok node) (s : SelectorName) (name : Name) :
    termMatch.search t ⟨s, n, some name, expression⟩ = .ok true ↔
      term.words <:+: wordsOfProperty node name := by
  rw [search_eq hread s (textOfNode_property hnode name), Except.ok.injEq,
    isMatch_term_iff hread hterm, wordsOfProperty]

/-- All properties together are found by the words of the term in one of them or across several. -/
theorem search_all_iff (hread : readExpression expression = .ok ⟨[[term]]⟩)
    (hterm : term.excluded = false) (hnode : t.node n = .ok node) (s : SelectorName) :
    termMatch.search t ⟨s, n, none, expression⟩ = .ok true ↔
      (∃ name ∈ node.properties.names,
        termMatch.search t ⟨s, n, some name, expression⟩ = .ok true) ∨
      RunsOver term.words (wordsOfProperties node) := by
  have hwords : term.words ≠ [] := isWordy_of_readExpression hread _ (List.mem_singleton_self _)
    term (List.mem_singleton_self _)
  rw [search_eq hread s (textOfNode_all hnode), Except.ok.injEq, isMatch_term_iff hread hterm,
    words_textOfNode_all, infix_flatten_iff hwords]
  simp only [search_property_iff hread hterm hnode, wordsOfProperties, List.mem_map,
    exists_exists_and_eq_and]

/-- **A search in all properties also finds what runs over from one property into a later one.** Let
an expression be read as one term that is not excluded. Every search of a node for it has an answer. In
all properties the node is found exactly if it is found in one of them or the words of the term run
over. So searching all properties means searching each exactly if the words do not run over where no
property is found; they never do if the term is one word. -/
theorem search_whole_node_iff (hread : readExpression expression = .ok ⟨[[term]]⟩)
    (hterm : term.excluded = false) (hnode : t.node n = .ok node) (s : SelectorName) :
    let found (property : Option Name) : Prop :=
      termMatch.search t ⟨s, n, property, expression⟩ = .ok true
    (∀ property, ∃ answer, termMatch.search t ⟨s, n, property, expression⟩ = .ok answer) ∧
    (found none ↔ (∃ name ∈ node.properties.names, found (some name)) ∨
      RunsOver term.words (wordsOfProperties node)) ∧
    ((found none ↔ ∃ name ∈ node.properties.names, found (some name)) ↔
      ¬ (RunsOver term.words (wordsOfProperties node) ∧
        ∀ name ∈ node.properties.names, ¬ found (some name))) ∧
    (∀ w, term.words = [w] →
      (found none ↔ ∃ name ∈ node.properties.names, found (some name))) := by
  intro found
  have hall : found none ↔ _ := search_all_iff hread hterm hnode s
  refine ⟨fun property => ?_, hall, ?_, fun w hw => ?_⟩
  · cases property with
    | none => exact ⟨_, search_eq hread s (textOfNode_all hnode)⟩
    | some name => exact ⟨_, search_eq hread s (textOfNode_property hnode name)⟩
  · rw [hall, or_iff_left_iff_imp, not_and]
    push Not
    rfl
  -- one word cannot run over a border
  · rw [hall, or_iff_left]
    rw [hw]
    exact not_runsOver_singleton w _

/-- A node with the text `hello` in one property and `world` in the next. -/
def greetingNode : Node :=
  ⟨⟨"", "a"⟩, some 0, [], ⟨[(⟨"", "x"⟩, [.string "hello"]), (⟨"", "y"⟩, [.string "world"])]⟩, false⟩

/-- The tree of that node alone, at `/a`. -/
def greetingTree : Tree := ⟨#[⟨.empty, none, [1], ⟨[]⟩, false⟩, greetingNode]⟩

theorem reachable_greetingTree : Tree.Reachable greetingTree := by
  have ha := Tree.Reachable.empty.addPath
    (show Tree.empty.addPath ⟨true, [.named ⟨"", "a"⟩ 1]⟩ = .ok (_, 1) from rfl)
  have hx := ha.setProperty (show Tree.setProperty _ 1 ⟨"", "x"⟩ [.string "hello"] = .ok _ from rfl)
  exact hx.setProperty
    (show Tree.setProperty _ 1 ⟨"", "y"⟩ [.string "world"] = .ok greetingTree from rfl)

/-- The phrase `hello world` is in neither property of the node, but a search in all properties finds
it. -/
theorem search_whole_node_runs_over :
    ¬ ∀ (t : Tree) (n : NodeId) (node : Node) (s : SelectorName) (expression : String) (term : Term),
      Tree.Reachable t → t.node n = .ok node → readExpression expression = .ok ⟨[[term]]⟩ →
      term.excluded = false →
      (termMatch.search t ⟨s, n, none, expression⟩ = .ok true ↔
        ∃ name ∈ node.properties.names,
          termMatch.search t ⟨s, n, some name, expression⟩ = .ok true) := by
  intro h
  have hiff := h greetingTree 1 greetingNode ⟨"s"⟩ "\"hello world\"" ⟨["hello", "world"], false⟩
    reachable_greetingTree rfl (by decide +kernel) rfl
  obtain ⟨name, hname, hfound⟩ := hiff.mp (by decide +kernel)
  rcases List.mem_pair.mp hname with rfl | rfl
  · exact absurd hfound (by decide +kernel)
  · exact absurd hfound (by decide +kernel)

/-- The phrase is found by running over, and the word `world` because it is in a property. -/
theorem search_whole_node_iff_greeting :
    let names := greetingNode.properties.names
    let found (expression : String) (property : Option Name) : Prop :=
      termMatch.search greetingTree ⟨⟨"s"⟩, 1, property, expression⟩ = .ok true
    readExpression "\"hello world\"" = .ok ⟨[[⟨["hello", "world"], false⟩]]⟩ ∧
      readExpression "world" = .ok ⟨[[⟨["world"], false⟩]]⟩ ∧
      greetingTree.node 1 = .ok greetingNode ∧
      found "\"hello world\"" none ∧ (∀ name ∈ names, ¬ found "\"hello world\"" (some name)) ∧
      found "world" none := by
  intro names found
  have hphrase : readExpression "\"hello world\"" = .ok ⟨[[⟨["hello", "world"], false⟩]]⟩ := by
    decide +kernel
  have hword : readExpression "world" = .ok ⟨[[⟨["world"], false⟩]]⟩ := by decide +kernel
  have hnode : greetingTree.node 1 = .ok greetingNode := rfl
  have hwords : wordsOfProperties greetingNode = [["hello"], ["world"]] := by decide +kernel
  -- the phrase begins with the last word of one property and ends with the first of the next
  have hover : RunsOver ["hello", "world"] (wordsOfProperties greetingNode) := by
    rw [hwords]
    exact ⟨[], ["hello"], [], ["world"], [], ["hello"], ["world"], rfl, by simp, by simp,
      List.suffix_rfl, List.prefix_rfl, rfl⟩
  obtain ⟨-, hall, -, -⟩ := search_whole_node_iff hphrase rfl hnode ⟨"s"⟩
  obtain ⟨-, -, -, hsingle⟩ := search_whole_node_iff hword rfl hnode ⟨"s"⟩
  refine ⟨hphrase, hword, hnode, hall.mpr (.inr hover), ?_,
    (hsingle "world" rfl).mpr ⟨⟨"", "y"⟩, by decide, by decide +kernel⟩⟩
  intro name hname
  rcases List.mem_pair.mp hname with rfl | rfl
  · show ¬ (termMatch.search greetingTree ⟨⟨"s"⟩, 1, some ⟨"", "x"⟩, _⟩ = .ok true)
    decide +kernel
  · show ¬ (termMatch.search greetingTree ⟨⟨"s"⟩, 1, some ⟨"", "y"⟩, _⟩ = .ok true)
    decide +kernel

end ContentQuery.FullText
