import Mathlib.Data.List.Induction
import Mathlib.Data.List.Infix
import TestRoster.Proofs.Datum.Distinct
import TestRoster.Roster.Tree

/-!
A drawn tree shows every prefix of a name once.

The names below a file are paths of segments, and the nodes of its tree are their non-empty
prefixes. They are drawn in depth-first order, siblings in the order in which they first appear.
What is drawn in front of a node tells for each node above it, and for the node itself, whether it
is the last of its siblings.
-/
namespace TestRoster

/-- The segments that follow `parent` in paths, each once, in the order of first appearance. -/
def children (paths : List (List String)) (parent : List String) : List String :=
  (paths.filterMap fun path => (parent.isPrefixOf? path).bind List.head?).eraseDups

def isLast (paths : List (List String)) (node : List String) : Bool :=
  (children paths node.dropLast).getLast? == node.getLast?

/-- What is drawn for a node in front of those below it. -/
def column (paths : List (List String)) (node : List String) : String :=
  if isLast paths node then "    " else "│   "

/-- What is drawn in front of a node: the columns of the nodes on the way to it. -/
def indentation (paths : List (List String)) (parent : List String) : String :=
  String.join (parent.inits.tail.map (column paths))

def connector (paths : List (List String)) (node : List String) : String :=
  if isLast paths node then "└── " else "├── "

def drawnNode (paths : List (List String)) (node : List String) : String :=
  indentation paths node.dropLast ++ connector paths node ++ node.getLastD ""

/-- Depth-first order: a node stands before those below it, and it stands with all of them before a
later sibling. -/
inductive Precedes (paths : List (List String)) : List String → List String → Prop
  | below (node rest : List String) (more : rest ≠ []) : Precedes paths node (node ++ rest)
  | beside (parent : List String) (a b : String) (r s : List String)
      (earlier : [a, b].Sublist (children paths parent)) :
      Precedes paths (parent ++ a :: r) (parent ++ b :: s)

/-- The non-empty prefixes of paths, each once, in depth-first order. -/
structure IsPreorder (paths nodes : List (List String)) : Prop where
  each : ∀ node, node ∈ nodes ↔ node ≠ [] ∧ ∃ path ∈ paths, node <+: path
  once : nodes.Nodup
  order : nodes.Pairwise (Precedes paths)

def segmentsIn (tests : List TestCase) (file : String) : List (List String) :=
  (tests.filter fun t => t.file = file).map TestCase.segments

variable {paths : List (List String)} {parent node path : List String} {a b : String}

theorem isPrefixOf?_concat (parent : List String) (a : String) (path : List String) :
    (parent ++ [a]).isPrefixOf? path = (parent.isPrefixOf? path).bind ([a].isPrefixOf? ·) := by
  induction parent generalizing path with
  | nil => rfl
  | cons b parent ih =>
      cases path with
      | nil => rfl
      | cons c path =>
          simp only [List.cons_append, List.isPrefixOf?]
          split
          · exact ih path
          · rfl

theorem indentation_concat (parent : List String) (a : String) :
    indentation paths (parent ++ [a]) = indentation paths parent ++
      column paths (parent ++ [a]) := by
  have some' : parent.inits ≠ [] := by cases parent <;> simp
  rw [indentation, List.inits_append, List.tail_append_of_ne_nil some', List.map_append,
    String.join_append]
  simp [indentation, List.inits]

namespace Forest

def names : Forest → List String
  | .nil => []
  | .cons name _ next => name :: next.names

def belowName (name : String) : Forest → Forest
  | .nil => .nil
  | .cons n below next => if n = name then below else next.belowName name

/-- The nodes of a forest in depth-first order, each as the path that leads to it. -/
def nodes : Forest → List (List String)
  | .nil => []
  | .cons name below next => [name] :: (below.nodes.map (name :: ·) ++ next.nodes)

def ofPaths (paths : List (List String)) : Forest :=
  paths.foldl insert .nil

variable {f below next : Forest} {name : String}

theorem ofPaths_concat (paths : List (List String)) (path : List String) :
    ofPaths (paths ++ [path]) = (ofPaths paths).insert path := by
  simp [ofPaths]

theorem insert_nil (f : Forest) : f.insert [] = f := by
  cases f <;> rfl

theorem nil_insert (path : List String) : Forest.nil.insert path = spine path := by
  cases path <;> rfl

theorem names_insert (f : Forest) (a : String) (rest : List String) :
    (f.insert (a :: rest)).names = if a ∈ f.names then f.names else f.names ++ [a] := by
  induction f with
  | nil => rfl
  | cons name below next _ ih =>
      rw [insert]
      by_cases same : name = a
      · simp [names, same]
      · rw [if_neg same, names, ih]
        by_cases member : a ∈ next.names
        · simp [names, member]
        · simp [names, member, Ne.symm same]

theorem belowName_insert (f : Forest) (a b : String) (rest : List String) :
    (f.insert (a :: rest)).belowName b =
      if b = a then (f.belowName a).insert rest else f.belowName b := by
  induction f with
  | nil =>
      by_cases same : b = a
      · simp [insert, spine, belowName, nil_insert, same]
      · simp [insert, spine, belowName, same, Ne.symm same]
  | cons name below next _ ih =>
      rw [insert]
      by_cases here : name = a
      · by_cases same : b = a
        · simp [belowName, here, same]
        · simp [belowName, here, same, Ne.symm same]
      · rw [if_neg here, belowName, ih]
        by_cases same : b = a
        · simp [belowName, same, here]
        · simp [belowName, same]

theorem names_ofPaths (paths : List (List String)) :
    (ofPaths paths).names = (paths.filterMap List.head?).eraseDups := by
  induction paths using List.reverseRecOn with
  | nil => rfl
  | append_singleton paths path ih =>
      rw [ofPaths_concat, List.filterMap_append]
      cases path with
      | nil => rw [insert_nil, ih, List.filterMap_cons_none rfl, List.filterMap_nil,
        List.append_nil]
      | cons a rest =>
          rw [names_insert, ih]
          exact (eraseDups_concat _ a).symm

/-- What is below a name is the forest of what follows it in the paths. -/
theorem belowName_ofPaths (paths : List (List String)) (a : String) :
    (ofPaths paths).belowName a = ofPaths (paths.filterMap [a].isPrefixOf?) := by
  induction paths using List.reverseRecOn with
  | nil => rfl
  | append_singleton paths path ih =>
      rw [ofPaths_concat, List.filterMap_append]
      cases path with
      | nil => rw [insert_nil, ih, List.filterMap_cons_none rfl, List.filterMap_nil,
        List.append_nil]
      | cons b rest =>
          rw [belowName_insert]
          by_cases same : a = b
          · subst same
            simp [List.isPrefixOf?, ofPaths_concat, ih]
          · simp [List.isPrefixOf?, same, ih]

theorem filterMap_root (paths : List (List String)) :
    paths.filterMap ([] : List String).isPrefixOf? = paths := by
  simp [List.isPrefixOf?]

/-- A part of the forest of paths below one parent: each of its names once, with all that is below
it. -/
structure Grown (paths : List (List String)) (parent : List String) (f : Forest) : Prop where
  once : f.names.Nodup
  each : ∀ a ∈ f.names, f.belowName a = ofPaths (paths.filterMap (parent ++ [a]).isPrefixOf?)

theorem grown_ofPaths (paths : List (List String)) (parent : List String) :
    Grown paths parent (ofPaths (paths.filterMap parent.isPrefixOf?)) where
  once := by
    rw [names_ofPaths]
    exact nodup_eraseDups _
  each a _ := by
    rw [belowName_ofPaths, List.filterMap_filterMap]
    simp only [isPrefixOf?_concat]

theorem grown_root (paths : List (List String)) : Grown paths [] (ofPaths paths) := by
  have grown := grown_ofPaths paths []
  rwa [filterMap_root] at grown

theorem names_below (paths : List (List String)) (parent : List String) :
    (ofPaths (paths.filterMap parent.isPrefixOf?)).names = children paths parent := by
  rw [names_ofPaths, List.filterMap_filterMap, children]

theorem names_root (paths : List (List String)) : (ofPaths paths).names = children paths [] := by
  have names := names_below paths []
  rwa [filterMap_root] at names

theorem Grown.below_eq (h : Grown paths parent (.cons name below next)) :
    below = ofPaths (paths.filterMap (parent ++ [name]).isPrefixOf?) := by
  have here := h.each name List.mem_cons_self
  rwa [belowName, if_pos rfl] at here

theorem Grown.inside (h : Grown paths parent (.cons name below next)) :
    Grown paths (parent ++ [name]) below ∧ below.names = children paths (parent ++ [name]) := by
  rw [h.below_eq]
  exact ⟨grown_ofPaths paths _, names_below paths _⟩

theorem Grown.fresh (h : Grown paths parent (.cons name below next)) : name ∉ next.names :=
  (List.nodup_cons.mp h.once).1

theorem Grown.later (h : Grown paths parent (.cons name below next)) : Grown paths parent next where
  once := (List.nodup_cons.mp h.once).2
  each a member := by
    have other : name ≠ a := fun same => h.fresh (same ▸ member)
    have here := h.each a (List.mem_cons_of_mem name member)
    rwa [belowName, if_neg other] at here

theorem mem_nodes_cons (once : f.names.Nodup) {rest : List String} :
    a :: rest ∈ f.nodes ↔ a ∈ f.names ∧ (rest = [] ∨ rest ∈ (f.belowName a).nodes) := by
  induction f with
  | nil => simp [nodes, names]
  | cons name below next _ ih =>
      obtain ⟨fresh, once⟩ := List.nodup_cons.mp once
      rw [nodes, List.mem_cons, List.mem_append, ih once, names, belowName, List.mem_cons]
      by_cases same : name = a
      · subst same
        simp [fresh]
      · simp [same, Ne.symm same]

theorem nil_not_mem_nodes (f : Forest) : [] ∉ f.nodes := by
  induction f with
  | nil => simp [nodes]
  | cons name below next _ ih => simp [nodes, ih]

/-- The nodes of the forest of paths are their non-empty prefixes. -/
theorem mem_nodes_ofPaths (paths : List (List String)) (node : List String) :
    node ∈ (ofPaths paths).nodes ↔ node ≠ [] ∧ ∃ path ∈ paths, node <+: path := by
  induction node generalizing paths with
  | nil => simp [nil_not_mem_nodes]
  | cons a rest ih =>
      have top : a ∈ (ofPaths paths).names ↔ ∃ path, a :: path ∈ paths := by
        rw [names_ofPaths, List.mem_eraseDups, List.mem_filterMap]
        simp only [List.head?_eq_some_iff]
        exact ⟨fun ⟨_, member, path, same⟩ => ⟨path, same ▸ member⟩,
          fun ⟨path, member⟩ => ⟨_, member, path, rfl⟩⟩
      have inside (path : List String) : path ∈ paths.filterMap [a].isPrefixOf? ↔
        a :: path ∈ paths := by
        simp [List.mem_filterMap, List.isPrefixOf?_eq_some_iff_append_eq]
      have below : (∃ path ∈ paths, a :: rest <+: path) ↔
        ∃ path, a :: path ∈ paths ∧ rest <+: path := by
        simp only [List.cons_prefix_iff]
        exact ⟨fun ⟨_, member, path, same, starts⟩ => ⟨path, same ▸ member, starts⟩,
          fun ⟨path, member, starts⟩ => ⟨_, member, path, rfl, starts⟩⟩
      rw [mem_nodes_cons (grown_root paths).once, belowName_ofPaths, ih, top, below]
      simp only [inside, ne_eq, reduceCtorEq, not_false_eq_true, true_and]
      constructor
      · rintro ⟨⟨path, member⟩, rfl | ⟨-, found⟩⟩
        · exact ⟨path, member, List.nil_prefix⟩
        · exact found
      · rintro ⟨path, member, starts⟩
        refine ⟨⟨path, member⟩, ?_⟩
        by_cases none : rest = []
        · exact .inl none
        · exact .inr ⟨none, path, member, starts⟩

/-- A node that is there already is not inserted again. -/
theorem Grown.insert_of_mem (h : Grown paths parent f) (member : node ∈ f.nodes) :
    f.insert node = f := by
  induction f generalizing parent node with
  | nil => cases member
  | cons name below next ihBelow ihNext =>
      rw [nodes, List.mem_cons, List.mem_append] at member
      rcases member with rfl | member | member
      · rw [insert, if_pos rfl, insert_nil]
      · obtain ⟨rest, inner, rfl⟩ := List.mem_map.mp member
        rw [insert, if_pos rfl, ihBelow h.inside.1 inner]
      · cases node with
        | nil => exact absurd member (nil_not_mem_nodes next)
        | cons a rest =>
            have named := ((mem_nodes_cons h.later.once).mp member).1
            have other : name ≠ a := fun same => h.fresh (same ▸ named)
            rw [insert, if_neg other, ihNext h.later member]

/-- The nodes of siblings that are drawn one after the other are in depth-first order. -/
theorem Grown.pairwise_nodes (h : Grown paths parent f)
    (siblings : f.names <:+ children paths parent) :
    (f.nodes.map (parent ++ ·)).Pairwise (Precedes paths) := by
  induction f generalizing parent with
  | nil => exact .nil
  | cons name below next ihBelow ihNext =>
      obtain ⟨inside, all⟩ := h.inside
      have later := (List.suffix_cons name next.names).trans siblings
      have beside {a : String} {r s : List String} (member : a :: s ∈ next.nodes) :
          Precedes paths (parent ++ name :: r) (parent ++ a :: s) := by
        have named := ((mem_nodes_cons h.later.once).mp member).1
        refine .beside parent name a r s (.trans ?_ siblings.sublist)
        exact (List.singleton_sublist.mpr named).cons_cons name
      have deep := ihBelow inside (all ▸ List.suffix_refl _)
      rw [nodes, List.map_cons, List.map_append, List.pairwise_cons, List.pairwise_append]
      simp only [List.map_map]
      refine ⟨fun node member => ?_, ?_, ihNext h.later later, fun m first n second => ?_⟩
      · rcases List.mem_append.mp member with member | member
        · obtain ⟨rest, inner, rfl⟩ := List.mem_map.mp member
          have more : rest ≠ [] := fun none => nil_not_mem_nodes below (none ▸ inner)
          have before : Precedes paths (parent ++ [name]) _ := .below _ rest more
          rwa [List.append_assoc] at before
        · obtain ⟨_ | ⟨a, rest⟩, inner, rfl⟩ := List.mem_map.mp member
          · exact absurd inner (nil_not_mem_nodes next)
          · exact beside inner
      · simpa [Function.comp_def] using deep
      · obtain ⟨r, -, rfl⟩ := List.mem_map.mp first
        obtain ⟨_ | ⟨a, s⟩, inner, rfl⟩ := List.mem_map.mp second
        · exact absurd inner (nil_not_mem_nodes next)
        · exact beside inner

end Forest

theorem nodup_children (paths : List (List String)) (parent : List String) :
    (children paths parent).Nodup :=
  nodup_eraseDups _

theorem Precedes.ne {m n : List String} (before : Precedes paths m n) : m ≠ n := by
  cases before with
  | below _ rest more => exact fun same => more (List.self_eq_append_right.mp same)
  | beside parent a b r s earlier =>
      intro same
      obtain ⟨rfl, -⟩ := List.cons.inj (List.append_cancel_left same)
      have apart := earlier.nodup (nodup_children paths parent)
      simp at apart

theorem isPreorder_nodes (paths : List (List String)) :
    IsPreorder paths (Forest.ofPaths paths).nodes := by
  have order :=
    (Forest.grown_root paths).pairwise_nodes (Forest.names_root paths ▸ List.suffix_refl _)
  simp only [List.nil_append, List.map_id'] at order
  exact ⟨Forest.mem_nodes_ofPaths paths, order.imp Precedes.ne, order⟩

namespace Forest

variable {f below next : Forest} {name : String}

/-- The first of the siblings that are still to be drawn is the last one if no other follows. -/
theorem Grown.isLast_concat (h : Grown paths parent (.cons name below next))
    (siblings : (Forest.cons name below next).names <:+ children paths parent) :
    isLast paths (parent ++ [name]) = (next == .nil) := by
  obtain ⟨before, split⟩ := siblings
  rw [isLast, List.dropLast_concat, List.getLast?_concat, ← split, names]
  cases next with
  | nil => simp [names]
  | cons other below' next' =>
      have last : (before ++ name :: other :: next'.names).getLast? ≠ some name := by
        rw [List.append_cons, List.getLast?_append_of_ne_nil _ (List.cons_ne_nil _ _)]
        exact fun same => h.fresh (List.mem_of_getLast? same)
      exact beq_eq_false_iff_ne.mpr last

/-- The lines of siblings and of what is below them. -/
theorem Grown.draw_eq (h : Grown paths parent f) (siblings : f.names <:+ children paths parent) :
    f.draw (indentation paths parent) = f.nodes.map fun node =>
      drawnNode paths (parent ++ node) := by
  induction f generalizing parent with
  | nil => rfl
  | cons name below next ihBelow ihNext =>
      obtain ⟨inside, all⟩ := h.inside
      have later := (List.suffix_cons name next.names).trans siblings
      have last := h.isLast_concat siblings
      have deep := ihBelow inside (all ▸ List.suffix_refl _)
      rw [indentation_concat, column, last] at deep
      rw [draw, nodes, List.map_cons, List.map_append, ← ihNext h.later later, List.map_map]
      simp only [Function.comp_def, List.append_assoc, List.singleton_append] at deep ⊢
      rw [deep, drawnNode, connector, last]
      simp

end Forest

/-- A test is added to the names below its file, and no other file changes. -/
theorem addToFile_map {files : List String} (once : files.Nodup) (t : TestCase)
    (g : String → Forest)
    (unseen : t.file ∉ files → g t.file = .nil) :
    addToFile t (files.map fun file => (file, g file)) =
      (if t.file ∈ files then files else files ++ [t.file]).map fun file =>
        (file, if file = t.file then (g file).insert t.segments else g file) := by
  induction files with
  | nil => simp [addToFile, unseen]
  | cons file files ih =>
      obtain ⟨fresh, once⟩ := List.nodup_cons.mp once
      rw [List.map_cons, addToFile]
      by_cases same : file = t.file
      · have others : files.map (fun other => (other,
            if other = t.file then (g other).insert t.segments else g other)) =
            files.map fun other => (other, g other) :=
          List.map_congr_left fun other member => by
            rw [if_neg fun same' : other = t.file => fresh (same.trans same'.symm ▸ member)]
        rw [if_pos same, if_pos (List.mem_cons.mpr (.inl same.symm)), List.map_cons, others,
          if_pos same]
      · rw [if_neg same, ih once fun absent => unseen fun member =>
          (List.mem_cons.mp member).elim (fun same' => same same'.symm) absent]
        by_cases member : t.file ∈ files
        · simp [member, same]
        · simp [member, same, Ne.symm same]

theorem segmentsIn_concat (tests : List TestCase) (t : TestCase) (file : String) :
    segmentsIn (tests ++ [t]) file =
      if file = t.file then segmentsIn tests file ++ [t.segments] else segmentsIn tests file := by
  rw [segmentsIn, List.filter_append, List.map_append]
  by_cases same : file = t.file
  · simp [segmentsIn, same]
  · simp [segmentsIn, same, Ne.symm same]

theorem segmentsIn_eq_nil {tests : List TestCase} {file : String}
    (absent : file ∉ (tests.map TestCase.file).eraseDups) : segmentsIn tests file = [] := by
  rw [List.mem_eraseDups] at absent
  rw [segmentsIn, List.map_eq_nil_iff, List.filter_eq_nil_iff]
  exact fun t member same => absent (List.mem_map.mpr ⟨t, member, of_decide_eq_true same⟩)

theorem fileForests_concat (tests : List TestCase) (t : TestCase) :
    fileForests (tests ++ [t]) = addToFile t (fileForests tests) := by
  simp [fileForests]

/-- Each file stands where it first appears, with the forest of its names. -/
theorem fileForests_eq (tests : List TestCase) :
    fileForests tests = (tests.map TestCase.file).eraseDups.map fun file =>
      (file, Forest.ofPaths (segmentsIn tests file)) := by
  induction tests using List.reverseRecOn with
  | nil => rfl
  | append_singleton tests t ih =>
      rw [fileForests_concat, ih, addToFile_map (nodup_eraseDups _) t _ fun absent => by
        rw [segmentsIn_eq_nil absent]; rfl]
      rw [List.map_append, List.map_singleton, eraseDups_concat]
      refine List.map_congr_left fun file _ => ?_
      rw [segmentsIn_concat]
      split
      next same => rw [Forest.ofPaths_concat]
      next => rfl

/-- A test whose name is a prefix of one that is there already changes no file. -/
theorem addToFile_of_prefix {tests : List TestCase} {t u : TestCase} (there : u ∈ tests)
    (file : u.file = t.file) (starts : t.segments <+: u.segments) :
    addToFile t (fileForests tests) = fileForests tests := by
  have listed : t.file ∈ (tests.map TestCase.file).eraseDups :=
    List.mem_eraseDups.mpr (file ▸ List.mem_map_of_mem there)
  have path : u.segments ∈ segmentsIn tests t.file :=
    List.mem_map_of_mem (List.mem_filter.mpr ⟨there, decide_eq_true file⟩)
  have known : (Forest.ofPaths (segmentsIn tests t.file)).insert t.segments =
      Forest.ofPaths (segmentsIn tests t.file) := by
    by_cases none : t.segments = []
    · rw [none, Forest.insert_nil]
    · exact (Forest.grown_root _).insert_of_mem
        ((Forest.mem_nodes_ofPaths _ _).mpr ⟨none, u.segments, path, starts⟩)
  rw [fileForests_eq, addToFile_map (nodup_eraseDups _) t _ fun absent => absurd listed absent,
    if_pos listed]
  refine List.map_congr_left fun file _ => ?_
  split
  next same => rw [same, known]
  next => rfl

theorem treeLines_eq (tests : List TestCase) :
    treeLines tests = (tests.map TestCase.file).eraseDups.flatMap fun file => file ::
      (Forest.ofPaths (segmentsIn tests file)).nodes.map (drawnNode (segmentsIn tests file)) := by
  rw [treeLines, fileForests_eq, List.flatMap_map]
  refine List.flatMap_congr fun file _ => ?_
  exact congrArg _ ((Forest.grown_root _).draw_eq (Forest.names_root _ ▸ List.suffix_refl _))

/-- A drawn tree has, for each file where it first appears, its path and then one line for each
non-empty prefix of its names, in depth-first order; a line is told by the order of siblings alone.
A test whose name is a prefix of an earlier one of its file adds nothing. -/
theorem tree_draws_each_prefix_once :
    (∀ tests : List TestCase, ∃ nodes : String → List (List String),
      (∀ file, IsPreorder (segmentsIn tests file) (nodes file)) ∧
      treeLines tests = (tests.map TestCase.file).eraseDups.flatMap fun file =>
        file :: (nodes file).map (drawnNode (segmentsIn tests file))) ∧
    ∀ (before after : List TestCase) (t u : TestCase), u ∈ before → u.file = t.file →
      t.segments <+: u.segments → treeLines (before ++ t :: after) =
        treeLines (before ++ after) := by
  refine ⟨fun tests => ⟨fun file => (Forest.ofPaths (segmentsIn tests file)).nodes,
    fun file => isPreorder_nodes _, treeLines_eq tests⟩, fun before after t u there file starts =>
      ?_⟩
  have same : fileForests (before ++ [t]) = fileForests before := by
    rw [fileForests_concat, addToFile_of_prefix there file starts]
  rw [treeLines, treeLines, List.append_cons]
  simp only [fileForests, List.foldl_append] at same ⊢
  rw [same]

/-- A test that follows one of its subtests is drawn already. -/
theorem parent_after_child_adds_no_line :
    treeLines ([⟨"TestA/x", "a", 1, false⟩] ++ ⟨"TestA", "a", 2, false⟩ :: []) =
      treeLines ([⟨"TestA/x", "a", 1, false⟩] ++ []) :=
  tree_draws_each_prefix_once.2 [⟨"TestA/x", "a", 1, false⟩] [] ⟨"TestA", "a", 2, false⟩
    ⟨"TestA/x", "a", 1, false⟩ List.mem_cons_self rfl (by decide +kernel)

/-- Files that take turns, a child before its parent, an empty segment and a name that is
repeated. -/
example :
    treeLines [⟨"TestA/x", "a", 1, false⟩, ⟨"TestB", "b", 1, false⟩, ⟨"TestC/", "a", 1, false⟩,
    ⟨"TestA", "a", 1, false⟩, ⟨"TestA/y/z", "a", 1, false⟩, ⟨"TestA/x", "a", 1, false⟩] =
    ["a", "├── TestA", "│   ├── x", "│   └── y", "│       └── z", "└── TestC", "    └── ", "b",
      "└── TestB"] := by
  decide +kernel

end TestRoster
