import TestRoster.Discovery.Entry
import TestRoster.Proofs.Discovery.Outcome

/-!
Discovery of a file is the outcome of the accounts of its entries.

What an entry contributes does not depend on the entries around it: it is listed itself, then the
names that its account holds. Containment at this level has nothing left to do.
-/
namespace TestRoster

open Finding

namespace Discovery

def extend (d e : Discovery) : Discovery where
  tests := d.tests ++ e.tests
  issues := d.issues ++ e.issues

theorem extend_nil (d : Discovery) : d.extend {} = d := by
  simp [extend]

theorem nil_extend (d : Discovery) : extend {} d = d := by
  simp [extend]

theorem extend_assoc (d e f : Discovery) : (d.extend e).extend f = d.extend (e.extend f) := by
  simp [extend]

end Discovery

namespace Entry

def announcement (cfg : Config) (e : Entry) : List Finding :=
  if cfg.verbose then [.note ⟨.debug, "Evaluating " ++ e.name⟩] else []

/-- What the search for the subtests of an entry comes upon. -/
def subtestFindings (cfg : Config) (mode : Mode) (e : Entry) : List Finding :=
  match mode with
  | .benchmarks => []
  | .tests => Node.bodyFindings cfg e.name e.body

def findings (cfg : Config) (mode : Mode) (e : Entry) : List Finding :=
  e.announcement cfg ++ e.subtestFindings cfg mode

/-- What an entry contributes, if nothing stops the discovery. -/
def contribution (cfg : Config) (mode : Mode) (path : String) (e : Entry) : Discovery :=
  let told := Resolution.ofFindings (e.findings cfg mode)
  { tests := e.root mode path :: (told.names.zip told.lines).map fun n => ⟨n.1, path, n.2, false⟩
    issues := told.issues }

def contributions (cfg : Config) (mode : Mode) (path : String) : List Entry → Discovery
  | [] => {}
  | e :: rest => (e.contribution cfg mode path).extend (contributions cfg mode path rest)

theorem contributions_append (cfg : Config) (mode : Mode) (path : String) (es fs : List Entry) :
    contributions cfg mode path (es ++ fs) =
      (contributions cfg mode path es).extend (contributions cfg mode path fs) := by
  induction es with
  | nil => exact (Discovery.nil_extend _).symm
  | cons e rest ih =>
      rw [List.cons_append, contributions, contributions, ih, Discovery.extend_assoc]

/-- The issues of contributions are those of the findings. -/
theorem issues_contributions (cfg : Config) (mode : Mode) (path : String) (es : List Entry) :
    (contributions cfg mode path es).issues =
      (es.flatMap (findings cfg mode)).filterMap issue? := by
  induction es with
  | nil => rfl
  | cons e rest ih =>
      rw [List.flatMap_cons, List.filterMap_append, ← ih]
      rfl

/-- The announcement of an entry tells nothing of its subtests. -/
theorem ofFindings_findings (cfg : Config) (mode : Mode) (e : Entry) :
    Resolution.ofFindings (e.findings cfg mode) =
      Resolution.ofFindings (e.subtestFindings cfg mode) := by
  unfold findings announcement
  split
  · rfl
  · rw [List.nil_append]

theorem announce_eq (cfg : Config) (e : Entry) :
    e.announce cfg = outcome cfg.strict (e.announcement cfg) () := by
  unfold announce announcement
  split
  · exact outcome_say _ _
  · exact (outcome_nil _ _).symm

/-- No fault is left to contain in the subtests of an entry. -/
theorem subtests_eq (cfg : Config) (path : String) (e : Entry) (found : Discovery) :
    (found.addSubtests path <$> Node.resolve cfg e.name e.body).recover (e.contain cfg found) =
      outcome cfg.strict (Node.bodyFindings cfg e.name e.body)
        (found.addSubtests path (.ofFindings (Node.bodyFindings cfg e.name e.body))) := by
  rw [Node.resolve_eq, Step.ofAccount_ok, outcome_map]
  refine recover_outcome (Node.shaped_bodyFindings cfg e.name e.body) fun strict cause hc => ?_
  rw [contain, contain_strict strict _ _ _ hc]
  rfl

theorem discover_eq (cfg : Config) (mode : Mode) (path : String) (found : Discovery) (e : Entry) :
    e.discover cfg mode path found =
      outcome cfg.strict (e.findings cfg mode) (found.extend (e.contribution cfg mode path)) := by
  unfold discover
  rw [announce_eq]
  refine outcome_bind _ ?_
  rw [contribution, ofFindings_findings]
  cases mode with
  | benchmarks =>
      rw [subtestFindings, outcome_nil]
      simp [Discovery.extend, Discovery.addTest]
  | tests =>
      simp only [subtests_eq, subtestFindings]
      simp [Discovery.extend, Discovery.addTest, Discovery.addSubtests]

theorem discoverEach_eq (cfg : Config) (mode : Mode) (path : String) (found : Discovery)
    (es : List Entry) :
    discoverEach cfg mode path found es =
      outcome cfg.strict (es.flatMap (findings cfg mode))
        (found.extend (contributions cfg mode path es)) := by
  induction es generalizing found with
  | nil =>
      rw [List.flatMap_nil, contributions, Discovery.extend_nil, outcome_nil]
      rfl
  | cons e rest ih =>
      rw [discoverEach, discover_eq, List.flatMap_cons, contributions]
      refine outcome_bind _ ?_
      rw [ih, Discovery.extend_assoc]

end Entry

theorem Discovery.ofDeclarations_eq (cfg : Config) (mode : Mode) (path : String)
    (declarations : List Node) :
    Discovery.ofDeclarations cfg mode path declarations =
      outcome cfg.strict ((Entry.classify cfg mode declarations).flatMap (Entry.findings cfg mode))
        (Entry.contributions cfg mode path (Entry.classify cfg mode declarations)) := by
  rw [ofDeclarations, Entry.discoverEach_eq, Discovery.nil_extend]

end TestRoster
