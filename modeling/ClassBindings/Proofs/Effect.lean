import ClassBindings.Proofs.Step

/-! # What an operation does

An operation that puts no whole entry in place has one of few effects, carried out or refused:
nothing changes, a registration lets the package grow, a class that is still declared is written, an
accessor is attached to a class that is not finalized, or the operation belongs to resolution and is
a sequence of passes (`Operation.Effect` and `Operation.apply_effect`).  Every such operation is
thus a sequence of steps (`Operation.apply_steps`), and what each step keeps holds of all reachable
packages (`Reachable.invariant`).

Many properties are of one class alone.  Whatever each effect keeps of the class it writes (`Kept`)
holds of every class of every reachable package (`Reachable.allClasses`), and stays true of classes
that are moved from one package into another (`Attainable.allClasses`). -/
namespace ClassBindings

namespace NativeClass

/-- What one edit writes of a declaration.  Methods and overrides come last in their lists, and an
array hint has been checked. -/
inductive Declares (c : NativeClass) : NativeClass → Prop
  | isAbstract (value : Bool) : Declares c { c with isAbstract := value }
  | isObject (value : Bool) : Declares c { c with isObject := value }
  | header (header : HeaderId) : Declares c { c with header := some header }
  | skips (skips : List String) : Declares c { c with skips }
  | method (m : Method) : Declares c { c with methods := c.methods ++ [m] }
  | override (o : Override) : Declares c { c with overrides := c.overrides ++ [o] }
  | arrayHint {elements : Nat} {elementType : String} {hint : Option ArrayHint}
      (h : c.makeArrayHint elements elementType = .ok hint) :
      Declares c { c with arrayHint := hint }

theorem Declares.same {c d : NativeClass} (h : c.Declares d) : c.SameButDeclaration d := by
  cases h <;> rfl

/-- **A declaration keeps its methods where they are.** -/
theorem Declares.methods_isPrefix {c d : NativeClass} (h : c.Declares d) :
    c.methods <+: d.methods := by
  cases h with
  | method m => exact List.prefix_append _ _
  | _ => exact List.prefix_rfl

/-- The class is as it was, or it is still being declared and one edit has written of its
declaration. -/
def Redeclares (c d : NativeClass) : Prop := d = c ∨ (c.phase = .declared ∧ c.Declares d)

theorem declare_cases (change : NativeClass → NativeClass) (c : NativeClass) :
    (c.phase = .declared ∧ declare change c = .ok () (change c)) ∨
      ∃ e, declare change c = .error e c := by
  rw [declare, Edit.bind_get]
  cases h : c.checkDeclared with
  | ok u =>
    rw [Edit.bind_check_ok rfl]
    exact Or.inl ⟨checkDeclared_eq_ok_iff.1 h, rfl⟩
  | error e =>
    rw [Edit.bind_check_error rfl]
    exact Or.inr ⟨e, rfl⟩

theorem keeps_declare {change : NativeClass → NativeClass}
    (h : ∀ c : NativeClass, c.Declares (change c)) :
    Edit.Keeps Redeclares (declare change) := by
  intro c
  rcases declare_cases change c with ⟨hphase, hc⟩ | ⟨e, hc⟩
  · rw [hc]
    exact Or.inr ⟨hphase, h c⟩
  · rw [hc]
    exact Or.inl rfl

theorem keeps_setAbstract (value : Bool) : Edit.Keeps Redeclares (setAbstract value) :=
  keeps_declare fun _ => .isAbstract value

theorem keeps_setObject (value : Bool) : Edit.Keeps Redeclares (setObject value) :=
  keeps_declare fun _ => .isObject value

theorem keeps_setHeader (header : HeaderId) : Edit.Keeps Redeclares (setHeader header) :=
  keeps_declare fun _ => .header header

theorem keeps_setSkip (name : String) (skip : Bool) : Edit.Keeps Redeclares (setSkip name skip) :=
  keeps_declare fun _ => .skips _

theorem keeps_addOverride (o : Override) : Edit.Keeps Redeclares (addOverride o) :=
  keeps_declare fun _ => .override o

theorem keeps_addMethod (m : Method) : Edit.Keeps Redeclares (addMethod m) := by
  intro c
  rw [addMethod]
  rcases declare_cases (fun c => { c with methods := c.methods ++ [m] }) c with
    ⟨hphase, hc⟩ | ⟨e, hc⟩
  · rw [Edit.bind_apply_ok hc]
    exact Or.inr ⟨hphase, .method m⟩
  · rw [Edit.bind_apply_error hc]
    exact Or.inl rfl

theorem keeps_setNumberArray (elements : Nat) (elementType : String) :
    Edit.Keeps Redeclares (setNumberArray elements elementType) := by
  intro c
  rw [setNumberArray, Edit.bind_get]
  refine Edit.left_bind_check (Or.inl rfl) fun _ hphase => ?_
  refine Edit.left_bind_check (Or.inl rfl) fun hint hhint => ?_
  exact Or.inr ⟨checkDeclared_eq_ok_iff.1 hphase, .arrayHint hhint⟩

/-- The class with an accessor attached to the property that it claims a slot of. -/
def attached (accessor : MethodId) (claim : Observation) (c : NativeClass) : NativeClass :=
  let (properties, replaced) := c.properties.attach claim.property claim.role accessor
  { c with
    properties
    diagnostics := c.diagnostics ++ (claim.report? c.methods replaced).toList
    hasProperties := true }

theorem sameButProperties_attached (accessor : MethodId) (claim : Observation) (c : NativeClass) :
    c.SameButProperties (c.attached accessor claim) := rfl

/-- **Attaching is refused exactly if the accessor has no claim.** -/
theorem attachAccessor_cases (accessor : MethodId) (options : Options) (c : NativeClass) :
    (∃ claim, c.accessorClaim options accessor = .ok claim ∧
      attachAccessor accessor options c = .ok () (c.attached accessor claim)) ∨
    ∃ e, c.accessorClaim options accessor = .error e ∧
      attachAccessor accessor options c = .error e c := by
  rw [attachAccessor, Edit.bind_get]
  cases h : c.accessorClaim options accessor with
  | ok claim =>
    rw [Edit.bind_check_ok rfl]
    exact Or.inl ⟨claim, rfl, rfl⟩
  | error e =>
    rw [Edit.bind_check_error rfl]
    exact Or.inr ⟨e, rfl, rfl⟩

end NativeClass

namespace Package

variable {p q : Package} {id : ClassId} {c d : NativeClass}

/-! ## Classes already there -/

theorem putClass_self (hc : p.class? id = some c) : p.putClass id c = p := by
  have hlt := lt_length_of_class? hc
  have hget : p.classes[id.index] = c := by
    rw [class?, List.getElem?_eq_getElem hlt] at hc
    exact Option.some.inj hc
  rw [putClass, ← hget, List.set_getElem_self]

/-- What an edit of a class leaves of the package. -/
theorem left_editClass {α : Type} {R : Package → Package → Prop} (edit : Edit NativeClass α)
    (hrefl : R p p) (h : ∀ c, p.class? id = some c → c.phase ≠ .finalized →
      R p (p.putClass id (Edit.left (edit c)))) : R p (Edit.left (editClass id edit p)) := by
  rw [editClass]
  cases hc : p.class? id with
  | none => exact hrefl
  | some c =>
    by_cases hfinal : c.isFinalized
    -- A finalized class is refused before the edit runs.
    · simp only [hfinal, if_true]
      exact hrefl
    · have hphase : c.phase ≠ .finalized := by
        intro hphase
        exact hfinal (by simp [NativeClass.isFinalized, Phase.isFinalized, hphase])
      have hput := h c hc hphase
      simp only [hfinal, Edit.within]
      cases hedit : edit c with
      | ok a d =>
        rw [hedit] at hput
        exact hput
      | error e d =>
        rw [hedit] at hput
        exact hput

/-- **An edit of a class is carried out exactly if the class is there, is not finalized, and the edit
of it is carried out.** -/
theorem editClass_eq_ok_iff {α : Type} {edit : Edit NativeClass α} {a : α} :
    editClass id edit p = .ok a q ↔ ∃ c d, p.class? id = some c ∧ c.phase ≠ .finalized ∧
      edit c = .ok a d ∧ q = p.putClass id d := by
  rw [editClass]
  cases hc : p.class? id with
  | none => simp
  | some c =>
    by_cases hfinal : c.phase = .finalized
    · simp [NativeClass.isFinalized, Phase.isFinalized, hfinal]
    · simp only [NativeClass.isFinalized, Phase.isFinalized, hfinal, decide_false,
        Bool.false_eq_true, if_false, Edit.within]
      constructor
      · intro h
        cases hedit : edit c with
        | ok b d =>
          rw [hedit] at h
          cases h
          exact ⟨c, d, rfl, hfinal, hedit, rfl⟩
        | error e d =>
          rw [hedit] at h
          cases h
      · rintro ⟨_, d, ⟨⟩, _, hok, rfl⟩
        rw [hok]

/-- An edit of a class that leaves no trace there leaves none in the package. -/
theorem atomic_editClass {α : Type} {edit : Edit NativeClass α} (h : Edit.Atomic edit)
    (id : ClassId) : Edit.Atomic (editClass id edit) := by
  intro p e q hq
  rw [editClass] at hq
  cases hc : p.class? id with
  | none =>
    rw [hc] at hq
    cases hq
    rfl
  | some c =>
    by_cases hfinal : c.isFinalized
    · simp only [hc, hfinal, if_true] at hq
      cases hq
      rfl
    · simp only [hc, hfinal] at hq
      cases hedit : edit c with
      | ok a d =>
        simp only [Edit.within, hedit] at hq
        cases hq
      | error e' d =>
        have hsame : d = c := h c e' d hedit
        simp only [Edit.within, hedit, hsame, putClass_self hc] at hq
        cases hq
        rfl

/-! ## Registrations -/

/-- An edit of the types changes the types. -/
theorem keeps_editTypes {α : Type} (edit : Edit TypeTable α) :
    Edit.Keeps (fun p q => ∃ types, q = { p with types }) (editTypes edit) := by
  rw [editTypes]
  exact .within (fun types _ => ⟨types, rfl⟩) edit

theorem grows_editTypes {α : Type} (edit : Edit TypeTable α) :
    Edit.Keeps Grows (editTypes edit) := by
  refine (keeps_editTypes edit).mono fun p q h => ?_
  obtain ⟨types, rfl⟩ := h
  exact .single (.aside rfl rfl)

theorem grows_editModule (id : ModuleId) (change : PackageModule → PackageModule) :
    Edit.Keeps Grows (editModule id change) := by
  intro p
  rw [editModule, Edit.bind_get]
  exact Edit.left_bind_check .refl fun _ _ => .single (.aside rfl rfl)

theorem grows_registerModule (name : String) : Edit.Keeps Grows (registerModule name) :=
  fun _ => .single (.aside rfl rfl)

theorem grows_registerHeader (module : ModuleId) (path : String) :
    Edit.Keeps Grows (registerHeader module path) := by
  intro p
  rw [registerHeader, Edit.bind_get]
  refine Edit.Keeps.bind Grows.trans (grows_editModule _ _) (fun _ => ?_) p
  exact fun q => .single (.aside rfl rfl)

theorem grows_registerEnumeration (module : ModuleId) (name : String) :
    Edit.Keeps Grows (registerEnumeration module name) := by
  intro p
  rw [registerEnumeration, Edit.bind_get]
  refine Edit.left_bind_check .refl fun _ _ => ?_
  refine Edit.Keeps.bind Grows.trans (grows_editTypes _) (fun _ => ?_) p
  exact .bind Grows.trans (grows_editModule _ _) fun _ _ => .refl

theorem grows_registerClass (module : ModuleId) (name nativeName : String) :
    Edit.Keeps Grows (registerClass module name nativeName) := by
  intro p
  rw [registerClass, Edit.bind_get]
  refine Edit.left_bind_check .refl fun _ _ => ?_
  generalize TypeTable.register (.ofName name (.boundClass ⟨p.classes.length⟩)) = edit
  have hkeeps := keeps_editTypes edit p
  have hgrows := grows_editTypes edit p
  cases hedit : editTypes edit p with
  | error e q =>
    rw [Edit.bind_apply_error hedit]
    rwa [hedit] at hgrows
  | ok hash q =>
    rw [Edit.bind_apply_ok hedit]
    rw [hedit] at hgrows hkeeps
    obtain ⟨types, rfl⟩ := hkeeps
    -- The type is registered first, so the class is added to a package that knows it.
    have hregister : Growth { p with types }
        { p with
          types
          classes := p.classes ++ [{ id := ⟨p.classes.length⟩, name, nativeName, module }]
          classIds := p.classIds.insert name ⟨p.classes.length⟩ } := .register rfl rfl
    refine Grows.trans _ _ _ hgrows (Grows.trans _ _ _ (.single hregister) ?_)
    rw [Edit.bind_apply_ok (Edit.modify_apply _ _)]
    refine Edit.Keeps.bind Grows.trans (grows_editModule _ _) (fun _ => ?_) _
    exact fun _ => .refl

end Package

/-! ## Every operation -/

namespace Operation

open Package

variable {p q : Package} {id : ClassId} {c d : NativeClass} {op : Operation}

/-- The operation belongs to resolution. -/
def isResolution : Operation → Bool
  | preprocess _ | process _ | postprocess _ | resolveClass _ | resolveAll => true
  | _ => false

/-- The operation belongs to filling the package. -/
def isRegistration : Operation → Bool
  | registerModule _ | registerHeader .. | registerClass .. | registerEnumeration .. => true
  | registerAlias .. => true
  | _ => false

/-- **Every operation of resolution is a sequence of passes.** -/
theorem apply_passes {op : Operation} (h : op.isResolution) (p : Package) :
    Passes p (op.apply p) := by
  cases op with
  | preprocess id => exact keeps_preprocess id p
  | process id => exact keeps_process id p
  | postprocess id => exact keeps_postprocess id p
  | resolveClass id => exact keeps_resolveClass id p
  | resolveAll => exact passes_resolveAll p
  | _ => cases h

/-- What an operation that puts no whole entry in place makes of a package. -/
inductive Effect (p : Package) : Operation → Package → Prop
  | refl {op : Operation} : Effect p op p
  | grow {op : Operation} {q : Package} (hop : op.isRegistration) (h : Grows p q) : Effect p op q
  | declare {op : Operation} {id : ClassId} {c d : NativeClass} (hc : p.class? id = some c)
      (hphase : c.phase = .declared) (h : c.Declares d) : Effect p op (p.putClass id d)
  | rebase {op : Operation} {id : ClassId} {c : NativeClass} {base : Option ClassId}
      (hc : p.class? id = some c) (hphase : c.phase = .declared)
      (hbase : p.checkBase c id base = .ok ()) : Effect p op (p.putClass id { c with base })
  | attach {id : ClassId} {accessor : MethodId} {options : Options} {c : NativeClass}
      {claim : Observation} (hc : p.class? id = some c) (hphase : c.phase ≠ .finalized)
      (hclaim : c.accessorClaim options accessor = .ok claim) :
      Effect p (.attachAccessor id accessor options) (p.putClass id (c.attached accessor claim))
  | resolve {op : Operation} {q : Package} (hop : op.isResolution) (h : Passes p q) : Effect p op q

theorem effect_editClass {α : Type} {edit : Edit NativeClass α}
    (h : Edit.Keeps NativeClass.Redeclares edit) (p : Package) (op : Operation) (id : ClassId) :
    Effect p op (Edit.left (editClass id edit p)) := by
  refine left_editClass (R := (Effect · op)) edit .refl fun c hc _ => ?_
  rcases h c with hsame | ⟨hphase, hd⟩
  · rw [hsame, putClass_self hc]
    exact .refl
  · exact .declare hc hphase hd

theorem effect_setClassHeader (p : Package) (op : Operation) (id : ClassId) (header : HeaderId) :
    Effect p op (Edit.left (Package.setClassHeader id header p)) := by
  rw [Package.setClassHeader, Edit.bind_get]
  refine Edit.left_bind_check (R := (Effect · op)) .refl fun _ _ => ?_
  exact effect_editClass (NativeClass.keeps_setHeader header) p op id

theorem effect_setBase (p : Package) (op : Operation) (id : ClassId) (base : Option ClassId) :
    Effect p op (Edit.left (Package.setBase id base p)) := by
  rw [Package.setBase, Edit.bind_get]
  refine Edit.left_bind_check (R := (Effect · op)) .refl fun c hc => ?_
  refine Edit.left_bind_check (R := (Effect · op)) .refl fun _ hphase => ?_
  refine Edit.left_bind_check (R := (Effect · op)) .refl fun _ hbase => ?_
  exact .rebase (getClass_eq_ok_iff.1 hc) (NativeClass.checkDeclared_eq_ok_iff.1 hphase) hbase

theorem effect_attachAccessor (p : Package) (id : ClassId) (accessor : MethodId)
    (options : Options) :
    Effect p (.attachAccessor id accessor options)
      (Edit.left (editClass id (NativeClass.attachAccessor accessor options) p)) := by
  refine left_editClass (R := (Effect · (.attachAccessor id accessor options))) _ .refl
    fun c hc hphase => ?_
  rcases NativeClass.attachAccessor_cases accessor options c with
    ⟨claim, hclaim, hok⟩ | ⟨e, _, herror⟩
  · rw [hok]
    exact .attach hc hphase hclaim
  · rw [herror]
    show Effect p _ (p.putClass id c)
    rw [putClass_self hc]
    exact .refl

/-- **Every operation that puts no whole entry in place has one of these effects.** -/
theorem apply_effect {op : Operation} (h : ¬op.isReplacement) (p : Package) :
    Effect p op (op.apply p) := by
  cases op with
  | registerModule name => exact .grow rfl (grows_registerModule name p)
  | registerHeader module path => exact .grow rfl (grows_registerHeader module path p)
  | registerClass module name nativeName =>
    exact .grow rfl (grows_registerClass module name nativeName p)
  | registerEnumeration module name => exact .grow rfl (grows_registerEnumeration module name p)
  | registerAlias name target => exact .grow rfl (grows_editTypes _ p)
  | setClassHeader id header => exact effect_setClassHeader p _ id header
  | setBase id base => exact effect_setBase p _ id base
  | setAbstract id value => exact effect_editClass (NativeClass.keeps_setAbstract value) p _ id
  | setObject id value => exact effect_editClass (NativeClass.keeps_setObject value) p _ id
  | setNumberArray id elements elementType =>
    exact effect_editClass (NativeClass.keeps_setNumberArray elements elementType) p _ id
  | setSkip id name skip => exact effect_editClass (NativeClass.keeps_setSkip name skip) p _ id
  | addMethod id m => exact effect_editClass (NativeClass.keeps_addMethod m) p _ id
  | addOverride id o => exact effect_editClass (NativeClass.keeps_addOverride o) p _ id
  | attachAccessor id accessor options => exact effect_attachAccessor p id accessor options
  | replaceClass id entry => exact absurd rfl h
  | preprocess id => exact .resolve rfl (apply_passes rfl p)
  | process id => exact .resolve rfl (apply_passes rfl p)
  | postprocess id => exact .resolve rfl (apply_passes rfl p)
  | resolveClass id => exact .resolve rfl (apply_passes rfl p)
  | resolveAll => exact .resolve rfl (apply_passes rfl p)

/-- **And so it is a sequence of steps.** -/
theorem Effect.steps (h : Effect p op q) : Steps p q := by
  cases h with
  | refl => exact .refl
  | grow _ h => exact h.steps
  | declare hc hphase hd => exact .single (.change hc (.declare hphase hd.same))
  | rebase hc hphase hbase => exact .single (.change hc (.rebase hphase hbase))
  | attach hc hphase _ =>
    exact .single (.change hc (.attach hphase (NativeClass.sameButProperties_attached ..)))
  | resolve _ h => exact h.steps

theorem apply_steps (h : ¬op.isReplacement) (p : Package) : Steps p (op.apply p) :=
  (apply_effect h p).steps

theorem run_passes {operations : List Operation} (h : ∀ op ∈ operations, op.isResolution)
    (p : Package) : Passes p (run p operations) := by
  induction operations generalizing p with
  | nil => exact .refl
  | cons op rest ih =>
    exact Relation.ReflTransGen.trans (apply_passes (h op List.mem_cons_self) p)
      (ih (fun o ho => h o (List.mem_cons_of_mem _ ho)) _)

theorem run_steps {operations : List Operation} (h : ∀ op ∈ operations, ¬op.isReplacement)
    (p : Package) : Steps p (run p operations) := by
  induction operations generalizing p with
  | nil => exact .refl
  | cons op rest ih =>
    exact Steps.trans _ _ _ (apply_steps (h op List.mem_cons_self) p)
      (ih (fun o ho => h o (List.mem_cons_of_mem _ ho)) _)

end Operation

namespace Package

variable {p q : Package} {id : ClassId} {c d : NativeClass}

/-- **What each step keeps, every reachable package has.** -/
theorem Reachable.invariant {motive : Package → Prop}
    (new : ∀ name options, motive { name, options })
    (step : ∀ p q, Step p q → motive p → motive q) {p : Package} (h : p.Reachable) : motive p :=
  h.induction new fun p _ hop hp => (Operation.apply_steps hop p).invariant step hp

/-! ## What every class keeps -/

/-- Every class of the package has the property, which may depend on its position. -/
def AllClasses (p : Package) (motive : ClassId → NativeClass → Prop) : Prop :=
  ∀ id c, p.class? id = some c → motive id c

/-- A new class has the property, and a class keeps it whatever one effect makes of the class. -/
structure Kept (motive : ClassId → NativeClass → Prop) : Prop where
  register : ∀ id name nativeName module, motive id { id, name, nativeName, module }
  declare : ∀ id c d, c.phase = .declared → c.Declares d → motive id c → motive id d
  rebase : ∀ id c base, c.phase = .declared → motive id c → motive id { c with base }
  attach : ∀ id c options accessor claim, c.phase ≠ .finalized →
    NativeClass.accessorClaim c options accessor = .ok claim → motive id c →
      motive id (c.attached accessor claim)
  advance : ∀ p id c d, Advances p id c d → motive id c → motive id d

theorem allClasses_new (name : String) (options : Options) (motive : ClassId → NativeClass → Prop) :
    AllClasses { name, options } motive := by
  intro id c hc
  cases hc

section Kept
variable {motive : ClassId → NativeClass → Prop} (h : Kept motive)

theorem AllClasses.putClass (hp : p.AllClasses motive) (hc : p.class? id = some c)
    (hd : motive id d) : (p.putClass id d).AllClasses motive := by
  intro id' c' hc'
  rcases class?_putClass_eq_some hc hc' with ⟨rfl, rfl⟩ | ⟨_, hc'⟩
  · exact hd
  · exact hp id' c' hc'

/-- An entry put in place as a whole has to have the property itself. -/
theorem AllClasses.replaceClass (hp : p.AllClasses motive) {entry : NativeClass}
    (hentry : motive id entry) : (Edit.left (replaceClass id entry p)).AllClasses motive := by
  rw [Package.replaceClass]
  exact left_editClass (R := fun _ q => q.AllClasses motive) _ hp fun _ hc _ =>
    hp.putClass hc hentry

include h

theorem Growth.allClasses (hgrowth : Growth p q) (hp : p.AllClasses motive) :
    q.AllClasses motive := by
  intro id c hc
  cases hgrowth with
  | aside hclasses _ =>
    rw [Package.class?, hclasses] at hc
    exact hp id c hc
  | register hclasses _ =>
    rcases class?_append_cases hclasses hc with hc | ⟨rfl, rfl⟩
    · exact hp id c hc
    · exact h.register ..

theorem Pass.allClasses (hpass : Pass p q) (hp : p.AllClasses motive) : q.AllClasses motive := by
  cases hpass with
  | @advance id c d hc hadvances => exact hp.putClass hc (h.advance p id c d hadvances (hp id c hc))

/-- **What one operation preserves of every class.** -/
theorem AllClasses.effect {op : Operation} (heffect : op.Effect p q) (hp : p.AllClasses motive) :
    q.AllClasses motive := by
  cases heffect with
  | refl => exact hp
  | grow _ hgrows =>
    induction hgrows with
    | refl => exact hp
    | tail _ hgrowth ih => exact hgrowth.allClasses h ih
  | @declare _ id c d hc hphase hd =>
    exact hp.putClass hc (h.declare id c d hphase hd (hp id c hc))
  | @rebase _ id c base hc hphase _ =>
    exact hp.putClass hc (h.rebase id c base hphase (hp id c hc))
  | @attach id accessor options c claim hc hphase hclaim =>
    exact hp.putClass hc (h.attach id c options accessor claim hphase hclaim (hp id c hc))
  | resolve _ hpasses =>
    induction hpasses with
    | refl => exact hp
    | tail _ hpass ih => exact hpass.allClasses h ih

end Kept

/-- **What a class keeps wherever it is, every class has**, however entries were exchanged between
packages. -/
theorem Attainable.allClasses {motive : NativeClass → Prop} (h : Kept fun _ => motive)
    (hp : p.Attainable) : p.AllClasses fun _ => motive := by
  induction hp with
  | new name options => exact allClasses_new name options _
  | @apply p op _ hop ih => exact ih.effect h (Operation.apply_effect hop p)
  | @graft p other id source entry _ _ hentry ih ihother =>
    exact ih.replaceClass (ihother source entry hentry)

theorem Reachable.allClasses {motive : NativeClass → Prop} (h : Kept fun _ => motive)
    (hp : p.Reachable) : p.AllClasses fun _ => motive := hp.attainable.allClasses h

end Package

end ClassBindings
