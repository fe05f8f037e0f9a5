import SchemaLedger.Main
import SchemaLedger.Source.Registry
import SchemaLedger.Proofs.Discipline
import SchemaLedger.Proofs.History
import SchemaLedger.Proofs.DryRun
import SchemaLedger.Proofs.TableText
import SchemaLedger.Proofs.Undo
import SchemaLedger.Proofs.Races
import SchemaLedger.Proofs.LedgerTable
import SchemaLedger.Proofs.Rerun
import SchemaLedger.Proofs.RevertResume
import SchemaLedger.Proofs.Pieces
import SchemaLedger.Proofs.SelfContained
import SchemaLedger.Proofs.FileMeaning
import SchemaLedger.Proofs.ClauseChanges
import SchemaLedger.Proofs.ChainSteps
import SchemaLedger.Proofs.Demand
import SchemaLedger.Proofs.SchemaDemands
import SchemaLedger.Proofs.StatusAccount
import SchemaLedger.Proofs.RefusedInsertion
import SchemaLedger.Proofs.IntegerDefault
import SchemaLedger.Proofs.SequenceNames
import SchemaLedger.Proofs.Catalog
import SchemaLedger.Proofs.Interchange
import SchemaLedger.Proofs.PrintedPlan
import SchemaLedger.Proofs.OneRelation
import SchemaLedger.Proofs.LedgerRows
import SchemaLedger.Proofs.FileFaults
import SchemaLedger.Proofs.CreationOrder
import SchemaLedger.Proofs.OneDatabase
