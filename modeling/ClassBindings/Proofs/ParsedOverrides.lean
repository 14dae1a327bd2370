import ClassBindings.Proofs.Findings
import ClassBindings.Proofs.Step
import Mathlib.Data.List.Forall2

/-! # Parsed overrides

An override is parsed as a whole or not at all.  Its tokens are read in order, and each `Means` a
type or none; parsing yields all the types, one a token (`signatureTypes_eq_ok_iff`), or stops at
the first token without one (`signatureTypes_eq_error_iff`).  An override that has been parsed is
left alone, whatever its tokens mean by now.

So the overrides of a declared class fall into two lists: those that are parsed or can be
(`Override.isReadable`), and the others.  The first step of resolution keeps the former and reports
the latter, each list in its order (`Package.overrides_parsed_or_dropped`). -/
namespace ClassBindings

variable {resolve : String → Option TypeHash} {tokens : List String} {types : List TypeHash}
  {token : String}

/-! ## Signatures -/

/-- A written type means this type: its normal form leads to it. -/
def Means (resolve : String → Option TypeHash) (token : String) (type : TypeHash) : Prop :=
  resolve (TypeName.normalize token) = some type

/-- The written type is the first of these that means nothing. -/
def FirstUnknown (resolve : String → Option TypeHash) (tokens : List String) (token : String) :
    Prop :=
  ∃ before after, tokens = before ++ token :: after ∧
    (∀ known ∈ before, ∃ type, Means resolve known type) ∧ ∀ type, ¬Means resolve token type

theorem isSome_iff_means :
    (resolve (TypeName.normalize token)).isSome ↔ ∃ type, Means resolve token type :=
  Option.isSome_iff_exists

/-- The first unknown token is the one that is found. -/
theorem find?_isNone_iff :
    tokens.find? (fun token => (resolve (TypeName.normalize token)).isNone) = some token ↔
      FirstUnknown resolve tokens token := by
  have hnone (token : String) :
      (resolve (TypeName.normalize token)).isNone ↔ ∀ type, ¬Means resolve token type := by
    rw [← Option.not_isSome_iff_eq_none.trans Option.isNone_iff_eq_none.symm, isSome_iff_means,
      not_exists]
  rw [List.find?_eq_some_iff_append, hnone, and_comm, FirstUnknown]
  simp only [Option.not_isNone, isSome_iff_means, ← exists_and_right, and_assoc]

/-- **A signature is read exactly if each token means a type**, and then to these in order. -/
theorem signatureTypes_eq_ok_iff :
    signatureTypes resolve tokens = .ok types ↔ List.Forall₂ (Means resolve) tokens types := by
  induction tokens generalizing types with
  | nil =>
    rw [signatureTypes, List.forall₂_nil_left_iff, Except.ok.injEq]
    exact eq_comm
  | cons token rest ih =>
    rw [signatureTypes, List.forall₂_cons_left_iff]
    cases hresolve : resolve (TypeName.normalize token) with
    | none => simp [Means, hresolve]
    | some type =>
      cases hrest : signatureTypes resolve rest with
      | error first => simp [Except.map, Means, hresolve, ← ih, hrest]
      | ok later => simp [Except.map, Means, hresolve, ← ih, hrest, eq_comm]

/-- **A signature is refused for the first token that means nothing.** -/
theorem signatureTypes_eq_error_iff :
    signatureTypes resolve tokens = .error token ↔ FirstUnknown resolve tokens token := by
  rw [← find?_isNone_iff]
  rcases Override.signatureTypes_cases resolve tokens with
    ⟨types, hok, hnone⟩ | ⟨first, herror, hfirst⟩
  · simp [hok, hnone]
  · simp [herror, hfirst]

/-! ## Filtering and mapping -/

/-- What a list is filtered and mapped to, where each member that passes is mapped to something
related to it and no other member is mapped to anything. -/
theorem forall₂_filter_filterMap {α β : Type} {R : α → β → Prop} {keep : α → Bool}
    {f : α → Option β} {xs : List α} (hkeep : ∀ x ∈ xs, keep x → ∃ y, f x = some y ∧ R x y)
    (hdrop : ∀ x ∈ xs, ¬keep x → f x = none) :
    List.Forall₂ R (xs.filter keep) (xs.filterMap f) := by
  induction xs with
  | nil => exact .nil
  | cons x rest ih =>
    have hrest := ih (fun y hy => hkeep y (List.mem_cons_of_mem _ hy))
      fun y hy => hdrop y (List.mem_cons_of_mem _ hy)
    by_cases hx : keep x
    · obtain ⟨y, hy, hxy⟩ := hkeep x List.mem_cons_self hx
      rw [List.filter_cons_of_pos hx, List.filterMap_cons_some hy]
      exact .cons hxy hrest
    · rw [List.filter_cons_of_neg hx,
        List.filterMap_cons_none (hdrop x List.mem_cons_self hx)]
      exact hrest

/-! ## One override -/

namespace Override

variable {o o' : Override} {e : BindError}

/-- Parsing carries out what an override resolves to. -/
theorem parse_eq_ok_iff : parse resolve o = .ok () o' ↔ o.resolved resolve = .ok o' := by
  rw [parse, Edit.bind_get]
  cases o.resolved resolve <;> simp [Edit.set_apply, Edit.throw_apply]

/-- **Parsing that fails leaves no trace**, and names the method and the token. -/
theorem parse_eq_error_iff : parse resolve o = .error e o' ↔
    o' = o ∧ ∃ token, o.resolved resolve = .error token ∧ e = .unresolvedType o.name token := by
  rw [parse, Edit.bind_get]
  cases o.resolved resolve <;> simp [Edit.set_apply, Edit.throw_apply, eq_comm, and_comm]

theorem resolved_of_parsed (h : o.isParsed) : o.resolved resolve = .ok o := if_pos h

theorem resolved_eq_ok_iff (h : ¬o.isParsed) :
    o.resolved resolve = .ok o' ↔ ∃ types, List.Forall₂ (Means resolve) o.signature types ∧
      o' = { o with types? := some types } := by
  rw [resolved, if_neg h]
  simp only [← signatureTypes_eq_ok_iff]
  cases signatureTypes resolve o.signature <;> simp [Except.map, eq_comm]

theorem resolved_eq_error_iff (h : ¬o.isParsed) :
    o.resolved resolve = .error token ↔ FirstUnknown resolve o.signature token := by
  rw [resolved, if_neg h, ← signatureTypes_eq_error_iff]
  cases signatureTypes resolve o.signature <;> simp [Except.map]

/-- The override is parsed, or it can be: all that is written has a meaning. -/
def isReadable (resolve : String → Option TypeHash) (o : Override) : Bool :=
  o.isParsed || o.signature.all fun token => (resolve (TypeName.normalize token)).isSome

theorem isReadable_iff (h : ¬o.isParsed) :
    o.isReadable resolve ↔ ∀ token ∈ o.signature, ∃ type, Means resolve token type := by
  simp only [isReadable, h, Bool.false_or, List.all_eq_true, isSome_iff_means]

/-- A readable override is not dropped. -/
theorem drop?_eq_none_iff : o.drop? resolve = none ↔ o.isReadable resolve := by
  rw [drop?, isReadable]
  by_cases h : o.isParsed
  · simp [h]
  · simp [h, List.find?_eq_none, Option.isSome_iff_ne_none]

/-- **An override is parsed exactly if it is readable.** -/
theorem exists_resolved_iff : (∃ o', o.resolved resolve = .ok o') ↔ o.isReadable resolve := by
  rw [← drop?_eq_none_iff]
  rcases resolved_cases resolve o with ⟨o', hok, hnone⟩ | ⟨token, herror, hdrop⟩
  · simp [hok, hnone]
  · simp [herror, hdrop]

/-! ## The overrides of a class -/

/-- **The readable overrides are kept, parsed.** -/
theorem forall₂_parsed (resolve : String → Option TypeHash) (overrides : List Override) :
    List.Forall₂ (fun o o' => parse resolve o = .ok () o' ∧ o'.isParsed)
      (overrides.filter (·.isReadable resolve)) (parsed resolve overrides) := by
  refine forall₂_filter_filterMap (fun o _ hreadable => ?_) fun o _ hnot => ?_
  · obtain ⟨o', hok⟩ := exists_resolved_iff.2 hreadable
    exact ⟨o', by rw [hok]; rfl, parse_eq_ok_iff.2 hok, isParsed_of_resolved hok⟩
  · cases hresolved : o.resolved resolve with
    | ok o' => exact absurd (exists_resolved_iff.1 ⟨o', hresolved⟩) hnot
    | error token => rfl

/-- **Every other override is reported**, for the first of its types that means nothing. -/
theorem forall₂_dropped (resolve : String → Option TypeHash) (overrides : List Override) :
    List.Forall₂ (fun o diagnostic => ∃ token, FirstUnknown resolve o.signature token ∧
        diagnostic = .unresolvedOverrideType o.name token)
      (overrides.filter fun o => !o.isReadable resolve) (overrides.filterMap (drop? resolve)) := by
  refine forall₂_filter_filterMap (fun o _ hnot => ?_) fun o _ hreadable => ?_
  · rw [Bool.not_eq_true'] at hnot
    have hparsed : ¬o.isParsed := by
      intro h
      simp [isReadable, h] at hnot
    rcases resolved_cases resolve o with ⟨o', hok, _⟩ | ⟨token, herror, hdrop⟩
    · rw [exists_resolved_iff.1 ⟨o', hok⟩] at hnot
      cases hnot
    · exact ⟨_, hdrop, token, (resolved_eq_error_iff hparsed).1 herror, rfl⟩
  · exact drop?_eq_none_iff.2 (by simpa using hreadable)

end Override

namespace Package

open Override (parse isReadable)

/-- **Overrides are parsed as a whole or not at all, and kept or reported accordingly.**  Parsing an
override that is not parsed is carried out exactly if each of its tokens means a type; it then holds
these types, in order, and is otherwise as before.  If it fails, it is for the first token that
means nothing, and the override is as before.  A parsed override is left alone.

So the first step on a declared class keeps, in order and parsed, the overrides that are parsed or
can be, and reports, in order and after all that was reported before, each of the others once, with
its method and its first token that means nothing. -/
theorem overrides_parsed_or_dropped :
    (∀ (resolve : String → Option TypeHash) (o : Override), ¬o.isParsed →
      ((∃ o', parse resolve o = .ok () o') ↔
        ∀ token ∈ o.signature, ∃ type, Means resolve token type) ∧
      (∀ o', parse resolve o = .ok () o' → ∃ types,
        List.Forall₂ (Means resolve) o.signature types ∧ o' = { o with types? := some types }) ∧
      ∀ e o', parse resolve o = .error e o' → o' = o ∧
        ∃ token, FirstUnknown resolve o.signature token ∧ e = .unresolvedType o.name token) ∧
    (∀ (resolve : String → Option TypeHash) (o : Override), o.isParsed →
      parse resolve o = .ok () o) ∧
    ∀ (p : Package) (id : ClassId) (c : NativeClass), p.class? id = some c →
      c.phase = .declared → ∃ d dropped,
        preprocess id p = .ok () (p.putClass id d) ∧
        List.Forall₂ (fun o o' => parse p.types.resolve o = .ok () o' ∧ o'.isParsed)
          (c.overrides.filter (·.isReadable p.types.resolve)) d.overrides ∧
        d.diagnostics = c.diagnostics ++ dropped ∧
        List.Forall₂ (fun o diagnostic =>
            ∃ token, FirstUnknown p.types.resolve o.signature token ∧
              diagnostic = .unresolvedOverrideType o.name token)
          (c.overrides.filter fun o => !o.isReadable p.types.resolve) dropped := by
  refine ⟨fun resolve o ho => ⟨?_, fun o' h => ?_, fun e o' h => ?_⟩, fun resolve o ho => ?_,
    fun p id c hc hphase => ?_⟩
  · simp only [Override.parse_eq_ok_iff, Override.exists_resolved_iff, Override.isReadable_iff ho]
  · exact (Override.resolved_eq_ok_iff ho).1 (Override.parse_eq_ok_iff.1 h)
  · obtain ⟨rfl, token, herror, rfl⟩ := Override.parse_eq_error_iff.1 h
    exact ⟨rfl, token, (Override.resolved_eq_error_iff ho).1 herror, rfl⟩
  · exact Override.parse_eq_ok_iff.2 (Override.resolved_of_parsed ho)
  · let d := c.preprocess p.types.resolve p.options
    have hoverrides : d.overrides = Override.parsed p.types.resolve c.overrides :=
      Override.parseEach_fst p.types.resolve c.overrides
    have hdiagnostics : d.diagnostics =
        c.diagnostics ++ c.overrides.filterMap (Override.drop? p.types.resolve) :=
      congrArg (c.diagnostics ++ ·) (Override.parseEach_snd p.types.resolve c.overrides)
    refine ⟨d, _, preprocess_eq_ok_iff.2 ⟨c, hc, hphase, rfl⟩, ?_, hdiagnostics,
      Override.forall₂_dropped p.types.resolve c.overrides⟩
    rw [hoverrides]
    exact Override.forall₂_parsed p.types.resolve c.overrides

/-- Two of the types of this override mean nothing. -/
def turnOverride : Override := { name := "turn", signature := ["int", "Quaternion", "Matrix"] }

/-- The type of this override has a qualifier. -/
def moveOverride : Override := { name := "move", signature := ["const String &"] }

/-- This override was parsed where its type meant something. -/
def scaleOverride : Override :=
  { name := "scale", signature := ["Quaternion"], types? := some [.ofName "Quaternion"] }

/-- Nodes with these three overrides. -/
def turnHistory : List Operation :=
  [.registerModule "scene", .registerClass ⟨0⟩ "Node" "scene::Node", .addOverride ⟨0⟩ moveOverride,
    .addOverride ⟨0⟩ turnOverride, .addOverride ⟨0⟩ scaleOverride]

/-- One override is reported, with the first of its types that means nothing.  Of the two that are
kept one was parsed before, and is as it was. -/
theorem overrides_parsed_or_dropped_turn :
    ∃ (p : Package) (c d : NativeClass) (o' : Override) (token : String),
      p = Operation.run { name := "scene" } turnHistory ∧ p.class? ⟨0⟩ = some c ∧
      c.phase = .declared ∧ preprocess ⟨0⟩ p = .ok () (p.putClass ⟨0⟩ d) ∧
      parse p.types.resolve moveOverride = .ok () o' ∧ d.overrides = [o', scaleOverride] ∧
      FirstUnknown p.types.resolve turnOverride.signature token ∧
      d.diagnostics = [.unresolvedOverrideType "turn" token] := by
  generalize hp : Operation.run { name := "scene" } turnHistory = p
  have hnode : (p.class? ⟨0⟩).any fun c => c.phase = .declared ∧ c.diagnostics = [] ∧
      c.overrides.filter (·.isReadable p.types.resolve) = [moveOverride, scaleOverride] ∧
      (c.overrides.filter fun o => !o.isReadable p.types.resolve) = [turnOverride] := by
    subst hp
    decide +kernel
  obtain ⟨c, hc, hsome⟩ := (Option.any_eq_true _ _).1 hnode
  obtain ⟨hphase, hclean, hreadable, hunknown⟩ := of_decide_eq_true hsome
  obtain ⟨_, hleaves, hsorts⟩ := overrides_parsed_or_dropped
  obtain ⟨d, dropped, hrun, hkept, hreports, hdropped⟩ := hsorts p ⟨0⟩ c hc hphase
  rw [hreadable] at hkept
  rw [hunknown] at hdropped
  rw [hclean] at hreports
  obtain ⟨o', kept, ⟨hmove, _⟩, hscale, hoverrides⟩ := List.forall₂_cons_left_iff.1 hkept
  obtain ⟨o'', _, ⟨hsame, _⟩, hnil, rfl⟩ := List.forall₂_cons_left_iff.1 hscale
  rw [hleaves _ scaleOverride rfl] at hsame
  cases hsame
  cases hnil
  obtain ⟨_, _, ⟨token, hfirst, rfl⟩, hnil, rfl⟩ := List.forall₂_cons_left_iff.1 hdropped
  cases hnil
  exact ⟨p, c, d, o', token, rfl, hc, hphase, hrun, hmove, hoverrides, hfirst, hreports⟩

end Package

end ClassBindings
