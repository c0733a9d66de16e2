import TestRoster.Go.Scope
import TestRoster.Proofs.Go.Outline

/-!
Lexical scoping, stated without a builder.

A layer lists the bindings made in one scope so far, the earliest first; around a place there is one
layer for each loop, closure and function that it stands in, and the file. A step of a block sees
what the steps before it have bound, and nothing of the blocks inside them.
-/
namespace TestRoster.Go

/-- The bindings made in one scope, in order. -/
abbrev Layer := List (String × Node)

namespace Layer

def Binds (layer : Layer) (name : String) : Prop :=
  ∃ declaration, (name, declaration) ∈ layer

/-- The bindings of names to one declaration. The blank name and the empty one are not bound. -/
def ofNames (names : List String) (declaration : Node) : Layer :=
  (names.filter fun name => name ≠ "" ∧ name ≠ "_").map (·, declaration)

def ofParameters (src : Source) (parameters : List Cst) : Layer :=
  parameters.flatMap fun p => (p.allAt "name").flatMap fun n =>
    ofNames [n.text src] (.other (n.line src) (.str "parameter") (.str (p.text src)))

end Layer

/-- The declaration of a name: the latest binding in the first layer, outwards, that binds it. -/
inductive Finds : List Layer → String → Node → Prop where
  | here {before after : Layer} {outer name declaration} (latest : ¬ after.Binds name) :
      Finds ((before ++ (name, declaration) :: after) :: outer) name declaration
  | outwards {layer : Layer} {outer name declaration} (unbound : ¬ layer.Binds name)
      (h : Finds outer name declaration) : Finds (layer :: outer) name declaration

/-- The bindings that a step makes, once it is converted. -/
def Part.made (src : Source) : Part → Node → Layer
  | .binding _ names _, n => .ofNames names n
  | .range clause, n => if clause.declares then .ofNames (clause.namesAt src) n else []
  | _, _ => []

def Layer.made (src : Source) (steps : List Part) (nodes : List Node) : Layer :=
  (steps.zip nodes).flatMap fun s => s.1.made src s.2

def Part.rangesOver? : Part → Node → Option Node
  | .range _, .assignment _ _ (.nodes values) _ => some (values.head?.getD .null)
  | _, _ => none

/-- What a loop ranges over: the source of the last range clause. -/
def loopSource (header : List Part) (nodes : List Node) : Node :=
  ((header.zip nodes).filterMap fun s => s.1.rangesOver? s.2).getLast?.getD .null

def Cst.keptNode (src : Source) (c : Cst) : Node :=
  .other (c.line src) (.str c.info.kind) (.str (Reading.shorten (c.text src)))

/-- The node that a part is converted to among these layers. -/
inductive Converts (src : Source) : List Layer → Part → Node → Prop where
  | absent {ctx} : Converts src ctx (.place none) .null
  | present {ctx c n} (h : Converts src ctx (.expression c) n) :
      Converts src ctx (.place (some c)) n
  | inner {ctx c e n} (form : c.form = .inner e) (h : Converts src ctx (.expression e) n) :
      Converts src ctx (.expression c) n
  | bound {ctx c declaration} (form : c.form = .name)
      (h : Finds ctx (c.text src) declaration) :
      Converts src ctx (.expression c)
        (.identifier (c.line src) (.str (c.text src)) declaration)
  | unbound {ctx c} (form : c.form = .name) (h : ∀ layer ∈ ctx, ¬ layer.Binds (c.text src)) :
      Converts src ctx (.expression c) (.identifier (c.line src) (.str (c.text src)) .null)
  | fieldName {ctx c} (form : c.form = .fieldName) :
      Converts src ctx (.expression c) (.identifier (c.line src) (.str (c.text src)) .null)
  | literal {ctx c} (form : c.form = .literal) :
      Converts src ctx (.expression c) (.literal (c.line src) (.str (c.text src)))
  | call {ctx c callee arguments f} {ns : List Node} (form : c.form = .call callee arguments)
      (hf : Converts src ctx (.place callee) f) (count : ns.length = arguments.length)
      (each : ∀ (i : Nat) a n, arguments[i]? = some a → ns[i]? = some n →
        Converts src ctx (.expression a) n) :
      Converts src ctx (.expression c) (.invocation (c.line src) f (.nodes ns))
  | select {ctx c operand field n} (form : c.form = .select operand field)
      (h : Converts src ctx (.place operand) n) :
      Converts src ctx (.expression c)
        (.memberAccess (c.line src) n (.str ((field.map (Cst.text src)).getD "")))
  | function {ctx c parameters statements} {ns : List Node}
      (form : c.form = .function parameters statements)
      (count : ns.length = (Cst.blockSteps src statements).length)
      (each : ∀ (i : Nat) s n, (Cst.blockSteps src statements)[i]? = some s → ns[i]? = some n →
        Converts src ((Layer.ofParameters src parameters ++
          Layer.made src ((Cst.blockSteps src statements).take i) (ns.take i)) :: ctx) s n) :
      Converts src ctx (.expression c) (.closure (c.line src) (.nodes ns))
  | composite {ctx c elements} {ns : List Node} (form : c.form = .composite elements)
      (count : ns.length = elements.length)
      (each : ∀ (i : Nat) e n, elements[i]? = some e → ns[i]? = some n →
        Converts src ctx (.element e) n) :
      Converts src ctx (.expression c) (.compositeValue (c.line src) (.nodes ns))
  | indirect {ctx c operand n} (form : c.form = .indirect operand)
      (h : Converts src ctx (.expression operand) n) :
      Converts src ctx (.expression c) (.indirection (c.line src) n)
  | keptExpression {ctx c} (form : c.form = .kept) :
      Converts src ctx (.expression c) (c.keptNode src)
  | keyed {ctx c key value k v} (kind : c.info.kind = "keyed_element")
      (parts : c.parts = [key, value]) (hk : Converts src ctx (.expression key) k)
      (hv : Converts src ctx (.expression value) v) :
      Converts src ctx (.element c) (.keyedElement (c.line src) k v)
  | keptElement {ctx c} (kind : c.info.kind = "keyed_element") (parts : c.parts.length ≠ 2) :
      Converts src ctx (.element c) (c.keptNode src)
  | positional {ctx c n} (kind : c.info.kind ≠ "keyed_element")
      (h : Converts src ctx (.expression c) n) :
      Converts src ctx (.element c) (.positionalElement (c.line src) n)
  | binding {ctx site names values} {ns : List Node} (count : ns.length = values.length)
      (each : ∀ (i : Nat) v n, values[i]? = some v → ns[i]? = some n →
        Converts src ctx (.expression v) n) :
      Converts src ctx (.binding site names values) (bindingNode (site.line src) names ns false)
  | range {layer ctx clause source} (h : Converts src ctx (.place (clause.at? "right")) source) :
      Converts src (layer :: ctx) (.range clause)
        (bindingNode (clause.line src) (clause.namesAt src)
          ((clause.at? "right").toList.map fun _ => source) true)
  | loop {ctx c} {hs ns : List Node} (headerCount : hs.length = (c.header src).length)
      (bodyCount : ns.length = (c.body src).length)
      (each : ∀ (i : Nat) s n, (c.header src ++ c.body src)[i]? = some s → (hs ++ ns)[i]? = some n →
        Converts src
          (Layer.made src ((c.header src ++ c.body src).take i) ((hs ++ ns).take i) :: ctx) s n) :
      Converts src ctx (.loop c)
        (.iteration (c.line src) (loopSource (c.header src) hs) (.nodes ns))
  | declaration {ctx c} {ns : List Node} (count : ns.length = (c.body src).length)
      (each : ∀ (i : Nat) s n, (c.body src)[i]? = some s → ns[i]? = some n →
        Converts src ((Layer.ofParameters src c.parameters ++
          Layer.made src ((c.body src).take i) (ns.take i)) :: ctx) s n) :
      Converts src ctx (.declaration c)
        (.declaration (c.line src) (.str (((c.at? "name").map (Cst.text src)).getD ""))
          (.nodes ns) (((c.receiver src).map Datum.str).getD .null))
  | kept {ctx c} : Converts src ctx (.kept c) (c.keptNode src)

/-- The declarations of a file. The package-level names are bound one after the other; every
function then stands in the scope of all of them. -/
def Lexical (src : Source) (root : Cst) (declarations : List Node) : Prop :=
  ∃ ns : List Node, ns.length = (root.packageSteps src).length ∧
    (∀ (i : Nat) s n, (root.packageSteps src)[i]? = some s → ns[i]? = some n →
      Converts src [Layer.made src ((root.packageSteps src).take i) (ns.take i)] s n) ∧
    declarations.length = root.functions.length ∧
    ∀ (i : Nat) c d, root.functions[i]? = some c → declarations[i]? = some d →
      Converts src [Layer.made src (root.packageSteps src) ns] (.declaration c) d

end TestRoster.Go
