import RecordSeal.Main
import RecordSeal.Mapper
import RecordSeal.Proofs.Mapper.Refinement
import RecordSeal.Proofs.Seal.Dependence
import RecordSeal.Proofs.Mapper.Keys
import RecordSeal.Proofs.Catalog.History
import RecordSeal.Proofs.Mapper.Aliases
import RecordSeal.Proofs.Act
import RecordSeal.Proofs.Settings.Precedence
import RecordSeal.Proofs.Hooks.Rewrite
import RecordSeal.Proofs.Seal.Footprint
import RecordSeal.Proofs.Catalog.Overrides
import RecordSeal.Proofs.Seal.Outcome
import RecordSeal.Proofs.Service.Resolution
import RecordSeal.Proofs.Hooks.Failure
import RecordSeal.Proofs.Mapper.Plain
import RecordSeal.Proofs.Session.Coherence
import RecordSeal.Proofs.Mapper.Registration
import RecordSeal.Proofs.Catalog.Inheritance
import RecordSeal.Proofs.Settings.Failure
import RecordSeal.Proofs.Settings.Layers
import RecordSeal.Proofs.Seal.Canonical
import RecordSeal.Proofs.Store.Race
import RecordSeal.Proofs.Mapper.Partial
import RecordSeal.Proofs.Settings.Environment
