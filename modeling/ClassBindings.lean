import ClassBindings.Package.Description
import ClassBindings.Package.History
import ClassBindings.Proofs.Lineage
import ClassBindings.Proofs.EditOutcome
import ClassBindings.Proofs.Step
import ClassBindings.Proofs.Coherence
import ClassBindings.Proofs.FinishOrder
import ClassBindings.Proofs.ResolutionOrder
import ClassBindings.Proofs.Completion
import ClassBindings.Proofs.Confluence
import ClassBindings.Proofs.Survival
import ClassBindings.Proofs.Exposure
import ClassBindings.Proofs.Hierarchy
import ClassBindings.Proofs.Isolation
import ClassBindings.Proofs.Seal
import ClassBindings.Proofs.PropertyWrites
import ClassBindings.Proofs.Accessors
import ClassBindings.Proofs.Findings
import ClassBindings.Proofs.Reporting
import ClassBindings.Proofs.Permanence
import ClassBindings.Proofs.Locality
import ClassBindings.Proofs.Settlement
import ClassBindings.Proofs.Registration
import ClassBindings.Proofs.Filing
import ClassBindings.Proofs.Stores
import ClassBindings.Proofs.TypeNames
import ClassBindings.Proofs.BaseNames
import ClassBindings.Proofs.RegisteredNames
import ClassBindings.Proofs.References
import ClassBindings.Proofs.ArrayHints
import ClassBindings.Proofs.Attachment
import ClassBindings.Proofs.Atomicity
import ClassBindings.Proofs.CarriedIds
import ClassBindings.Proofs.Earlier
import ClassBindings.Proofs.BaseLoops
import ClassBindings.Proofs.OverloadLaws
import ClassBindings.Proofs.NameIndependence
import ClassBindings.Proofs.Synthesis
import ClassBindings.Proofs.BaseLinks
import ClassBindings.Proofs.ParsedOverrides
import ClassBindings.Proofs.InferredAccessors
import ClassBindings.Proofs.Objects
import ClassBindings.Proofs.Qualifiers
import ClassBindings.Proofs.Builtins
import ClassBindings.Proofs.AddedBuiltins
import ClassBindings.Proofs.TypeIdentities
