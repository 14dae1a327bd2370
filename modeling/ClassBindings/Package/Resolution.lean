import ClassBindings.NativeClass.Resolution
import ClassBindings.Package.Ancestry

/-! # Resolving one class of a package

Each step is refused unless the class is in the phase that it starts from, and `process` also unless
every ancestor has been processed.  `resolveClass` runs the steps that remain. -/
namespace ClassBindings.Package

/-- Runs the first step on a class. -/
def preprocess (id : ClassId) : Edit Package Unit := do
  let p ← get
  let c ← p.getClass id
  c.checkPhase .preprocessed
  set (p.putClass id (c.preprocess p.types.resolve p.options))

/-- The class or one of its ancestors makes it an object. -/
def inObjectHierarchy (p : Package) (c : NativeClass) (ancestors : List NativeClass) : Bool :=
  (c :: ancestors).any fun a => p.options.isObjectRoot a.name

/-- Every ancestor of a class has been processed. -/
def checkProcessed (c : NativeClass) (ancestors : List NativeClass) : Except BindError Unit :=
  match ancestors.find? (·.phase < .processed) with
  | some base => .error (.baseNotResolved c.name base.name)
  | none => .ok ()

/-- Runs the second step on a class, whose ancestors all have to be processed.  Processed classes
are sealed, so the chain of ancestors that is stored here stays true. -/
def process (id : ClassId) : Edit Package Unit := do
  let p ← get
  let c ← p.getClass id
  c.checkPhase .processed
  let chain ← p.ancestorChain id
  let ancestors := chain.filterMap p.class?
  checkProcessed c ancestors
  set (p.putClass id (c.process p.options chain (p.inObjectHierarchy c ancestors)
    (.collect c ancestors)))

/-- Runs the last step on a class, which is read-only from then on. -/
def postprocess (id : ClassId) : Edit Package Unit := do
  let p ← get
  let c ← p.getClass id
  c.checkPhase .finalized
  set (p.putClass id c.postprocess)

/-- Runs the steps that remain for a class, up to the first that is refused. -/
def resolveClass (id : ClassId) : Edit Package Unit := do
  match (← (← get).getClass id).phase with
  | .declared =>
    preprocess id
    process id
    postprocess id
  | .preprocessed =>
    process id
    postprocess id
  | .processed => postprocess id
  | .finalized => return

end ClassBindings.Package
