import ClassBindings.Proofs.Accessors
import ClassBindings.Proofs.Registration

/-! # Attaching by hand

Properties come about in two ways.  Accessors are attached to a class one at a time, each written at
once (`NativeClass.attachAccessor`); or methods are observed first, and all claims granted together
on an empty map (`Synthesis.assemble`).  Each way asks a method for its claim in its own words, and
does its own books.

They agree.  An accessor is attached exactly if the claim of its method is taken, and refused
without a trace otherwise (`left_attachAccessor`).  Attaching it grants that claim to what the class
has by then, so a run of attachments grants the claims of its methods one after another, whatever
the class had before (`attachEach_eq`).  A class that had nothing ends with the properties and the
reports of the synthesis (`attachEach_agrees`). -/
namespace ClassBindings

/-- The claims that are taken of methods observed in turn, each under a position. -/
def Options.observeEach (options : Options) (observed : List (MethodId × Method)) :
    List Observation :=
  observed.filterMap fun (id, m) => options.observe? id m

namespace NativeClass

variable {options : Options} {id : MethodId} {m : Method} {claim : Observation} {c d : NativeClass}

/-- The class after attaching the accessors at these positions in turn; what is refused is passed
over. -/
def attachEach (options : Options) (ids : List MethodId) (c : NativeClass) : NativeClass :=
  ids.foldl (fun c id => Edit.left (attachAccessor id options c)) c

/-- What the class has of properties and reports, as a synthesis under way. -/
def synthesis (c : NativeClass) : Synthesis := ⟨c.properties, c.diagnostics⟩

/-! ## One accessor -/

/-- **An accessor claims what is observed of its method.** -/
theorem accessorClaim_eq_ok_iff (hm : c.method? id = some m) :
    c.accessorClaim options id = .ok claim ↔ options.observe? id m = some claim := by
  unfold accessorClaim Options.observe?
  rw [hm]
  cases hrole : m.accessorRole? with
  | none => simp [hrole]
  | some role =>
    cases hname : options.propertyName? role m.name with
    | none => simp [hrole, hname]
    | some property => simp [hrole, hname]

theorem method_of_observed (h : options.observe? id m = some claim) : claim.method = id := by
  rw [Options.observe?_eq] at h
  obtain ⟨slot, _, rfl⟩ := Option.map_eq_some_iff.1 h
  rfl

/-- Attaching grants a claim to what the class has. -/
theorem synthesis_attached (h : claim.method = id) (c : NativeClass) :
    (c.attached id claim).synthesis = Synthesis.grant c.methods c.synthesis claim := by
  subst h
  rfl

theorem atomic_attachAccessor (id : MethodId) (options : Options) :
    Edit.Atomic (attachAccessor id options) := by
  refine Edit.atomic_of_cases fun c => ?_
  rcases attachAccessor_cases id options c with ⟨claim, _, hok⟩ | ⟨e, _, herror⟩
  · exact Or.inr ⟨(), _, hok⟩
  · exact Or.inl ⟨e, herror⟩

/-- **Attaching is carried out exactly if the claim is taken.** -/
theorem attachAccessor_ok_iff (hm : c.method? id = some m) :
    (∃ d, attachAccessor id options c = .ok () d) ↔
      ∃ claim, options.observe? id m = some claim := by
  rcases attachAccessor_cases id options c with ⟨claim, hclaim, hok⟩ | ⟨e, hclaim, herror⟩
  · exact ⟨fun _ => ⟨claim, (accessorClaim_eq_ok_iff hm).1 hclaim⟩, fun _ => ⟨_, hok⟩⟩
  · constructor
    · rintro ⟨d, hok⟩
      rw [herror] at hok
      cases hok
    · rintro ⟨claim, htaken⟩
      rw [(accessorClaim_eq_ok_iff hm).2 htaken] at hclaim
      cases hclaim

/-- What an attachment leaves of the class. -/
theorem left_attachAccessor (hm : c.method? id = some m) :
    Edit.left (attachAccessor id options c) =
      match options.observe? id m with
      | some claim => c.attached id claim
      | none => c := by
  rcases attachAccessor_cases id options c with ⟨claim, hclaim, hok⟩ | ⟨e, hclaim, herror⟩
  · rw [hok, (accessorClaim_eq_ok_iff hm).1 hclaim]
    rfl
  · cases htaken : options.observe? id m with
    | none =>
      rw [herror]
      rfl
    | some claim =>
      rw [(accessorClaim_eq_ok_iff hm).2 htaken] at hclaim
      cases hclaim

theorem attachAccessor_of_none (hm : c.method? id = none) :
    attachAccessor id options c = .error (.methodNotFound c.name id.index) c := by
  have hclaim : c.accessorClaim options id = .error (.methodNotFound c.name id.index) := by
    rw [accessorClaim, hm]
  rw [attachAccessor, Edit.bind_get, Edit.bind_check_error hclaim]

/-! ## A run of attachments -/

/-- **A run of attachments grants the claims of its methods**, one after another, to what the class
has; nothing else of the class changes but the mark that there are properties. -/
theorem attachEach_eq (options : Options) (observed : List (MethodId × Method)) (c : NativeClass)
    (h : ∀ id m, (id, m) ∈ observed → c.method? id = some m) :
    attachEach options (observed.map Prod.fst) c =
      { c with
        properties := ((options.observeEach observed).foldl (Synthesis.grant c.methods)
          c.synthesis).properties
        diagnostics := ((options.observeEach observed).foldl (Synthesis.grant c.methods)
          c.synthesis).diagnostics
        hasProperties := c.hasProperties || !(options.observeEach observed).isEmpty } := by
  -- An attachment moves no method, so the positions stay right for the class that it leaves.
  induction observed generalizing c with
  | nil => simp [attachEach, Options.observeEach, synthesis]
  | cons pair rest ih =>
    rcases pair with ⟨id, m⟩
    have hm : c.method? id = some m := h id m List.mem_cons_self
    have hrest : ∀ id m, (id, m) ∈ rest → c.method? id = some m :=
      fun id m hmem => h id m (List.mem_cons_of_mem _ hmem)
    have hfirst : attachEach options (((id, m) :: rest).map Prod.fst) c =
        attachEach options (rest.map Prod.fst) (Edit.left (attachAccessor id options c)) := rfl
    rw [hfirst, left_attachAccessor hm]
    cases hclaim : options.observe? id m with
    | none =>
      have hobserve : options.observeEach ((id, m) :: rest) = options.observeEach rest := by
        simp [Options.observeEach, hclaim]
      rw [hobserve]
      exact ih c hrest
    | some claim =>
      have hobserve : options.observeEach ((id, m) :: rest) =
          claim :: options.observeEach rest := by
        simp [Options.observeEach, hclaim]
      have hsynthesis := synthesis_attached (method_of_observed hclaim) c
      rw [hobserve, List.foldl_cons, ← hsynthesis, ih (c.attached id claim) hrest]
      simp [attached]

/-- **Attaching by hand is synthesis.**  Let a class have no properties and nothing to report, and
let its methods be observed in some order, as often as one likes.  Attaching the accessors at their
positions in turn leaves the class with the properties and the reports that are assembled from the
claims taken, and otherwise as it was, but for the mark that there are properties.  An accessor in
the run is attached exactly if its claim is taken.  Whatever the class, an attachment that is
refused leaves it as it was, and one at a position without a method is refused. -/
theorem attachEach_agrees (hproperties : c.properties = .empty) (hdiagnostics : c.diagnostics = [])
    {observed : List (MethodId × Method)}
    (hobserved : ∀ id m, (id, m) ∈ observed → c.method? id = some m) (options : Options) :
    attachEach options (observed.map Prod.fst) c =
      { c with
        properties := (Synthesis.assemble c.methods (options.observeEach observed)).properties
        diagnostics := (Synthesis.assemble c.methods (options.observeEach observed)).diagnostics
        hasProperties := c.hasProperties || !(options.observeEach observed).isEmpty } ∧
    (∀ before id m after, observed = before ++ (id, m) :: after →
      ((∃ d, attachAccessor id options (attachEach options (before.map Prod.fst) c) = .ok () d) ↔
        ∃ claim, options.observe? id m = some claim)) ∧
    ∀ (d : NativeClass) id, (∀ e d', attachAccessor id options d = .error e d' → d' = d) ∧
      (d.method? id = none → Edit.Refused (attachAccessor id options) d) := by
  have hstart : c.synthesis = {} := by rw [synthesis, hproperties, hdiagnostics]
  refine ⟨?_, ?_, fun d id => ⟨atomic_attachAccessor id options d, fun hm => ?_⟩⟩
  · rw [attachEach_eq options observed c hobserved, hstart]
    rfl
  · intro before id m after hsplit
    have hbefore : ∀ id m, (id, m) ∈ before → c.method? id = some m :=
      fun id m hmem => hobserved id m (hsplit ▸ List.mem_append_left _ hmem)
    have hm : c.method? id = some m := hobserved id m (by simp [hsplit])
    refine attachAccessor_ok_iff ?_
    rw [attachEach_eq options before c hbefore]
    exact hm
  · exact ⟨_, attachAccessor_of_none hm⟩

/-- A class with two getters and a setter of `X`, an accessor that names nothing, a method that is
no accessor, and one that reads as well as writes. -/
def spriteClass : NativeClass where
  id := ⟨0⟩
  name := "Sprite"
  nativeName := "scene::Sprite"
  module := ⟨0⟩
  methods :=
    [.getter "GetX" (.ofName "int"), .getter "X" (.ofName "int"), .setter "SetX" (.ofName "int"),
      .getter "Get" (.ofName "int"), { name := "update", flags := .empty },
      { name := "SetX", flags := .union .getter .setter }]

/-- The methods of sprites at these positions. -/
def spriteObservations : List (MethodId × Method) :=
  [0, 1, 2, 0, 3, 4, 2, 5].filterMap fun i => spriteClass.methods[i]?.map (⟨i⟩, ·)

/-- The first getter of a sprite loses `X` to the second and takes it back, its setter is attached
twice without a word, the method that reads as well as writes reads a property of its full name, and
the two that claim nothing are refused. -/
theorem attachEach_agrees_sprite :
    spriteObservations.map Prod.fst = [⟨0⟩, ⟨1⟩, ⟨2⟩, ⟨0⟩, ⟨3⟩, ⟨4⟩, ⟨2⟩, ⟨5⟩] ∧
    (attachEach {} (spriteObservations.map Prod.fst) spriteClass).properties.entries =
      [("X", { getter := some ⟨0⟩, setter := some ⟨2⟩ }), ("SetX", { getter := some ⟨5⟩ })] ∧
    (attachEach {} (spriteObservations.map Prod.fst) spriteClass).diagnostics =
      [.duplicateAccessor "X" .getter "GetX" "X", .duplicateAccessor "X" .getter "X" "GetX"] ∧
    (∃ d, attachAccessor ⟨2⟩ {} (attachEach {} [⟨0⟩, ⟨1⟩] spriteClass) = .ok () d) ∧
    Edit.Refused (attachAccessor ⟨6⟩ {}) spriteClass := by
  have hobserved : ∀ id m, (id, m) ∈ spriteObservations → spriteClass.method? id = some m := by
    intro id m hmem
    obtain ⟨i, _, hi⟩ := List.mem_filterMap.1 hmem
    obtain ⟨m', hm', hpair⟩ := Option.map_eq_some_iff.1 hi
    cases hpair
    exact hm'
  obtain ⟨hrun, hturn, hrefused⟩ := attachEach_agrees (c := spriteClass) rfl rfl hobserved {}
  refine ⟨by decide +kernel, ?_, ?_, ?_, (hrefused spriteClass ⟨6⟩).2 rfl⟩
  · rw [hrun]
    decide +kernel
  · rw [hrun]
    decide +kernel
  · exact (hturn (spriteObservations.take 2) ⟨2⟩ (.setter "SetX" (.ofName "int")) _ rfl).2
      ⟨⟨"X", .setter, ⟨2⟩⟩, by decide +kernel⟩

end NativeClass

end ClassBindings
