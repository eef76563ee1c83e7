import DatasetPlan.Main
import DatasetPlan.Storage.FileTree
import DatasetPlan.Proofs.Ascending
import DatasetPlan.Proofs.Selection
import DatasetPlan.Proofs.Retyping
import DatasetPlan.Proofs.Grouping
import DatasetPlan.Proofs.Compile
import DatasetPlan.Proofs.Outcome
import DatasetPlan.Proofs.Agreement
import DatasetPlan.Proofs.Table.Basic
import DatasetPlan.Proofs.Table.Plan
import DatasetPlan.Proofs.Pipeline.Lowering
import DatasetPlan.Proofs.Pipeline.Engine
import DatasetPlan.Proofs.Pipeline.Simulation
import DatasetPlan.Proofs.Pipeline.References
import DatasetPlan.Proofs.Pipeline.Composition
import DatasetPlan.Proofs.Pipeline.Columns
import DatasetPlan.Proofs.Digest.Text
import DatasetPlan.Proofs.Digest.Steps
import DatasetPlan.Proofs.Digest.Identity
import DatasetPlan.Proofs.Digest.Call
import DatasetPlan.Proofs.Text
import DatasetPlan.Proofs.Naming
import DatasetPlan.Proofs.Request.Resource
import DatasetPlan.Proofs.Request.Validity
import DatasetPlan.Proofs.Request.FollowUp
import DatasetPlan.Proofs.Dataset.NormalizedName
import DatasetPlan.Proofs.Dataset.Construction
import DatasetPlan.Proofs.Dataset.Stored
import DatasetPlan.Proofs.Document.Codec
import DatasetPlan.Proofs.Document.Delivery
import DatasetPlan.Proofs.HyperValue
import DatasetPlan.Proofs.Document.Record
import DatasetPlan.Proofs.Document.Abridged
import DatasetPlan.Proofs.Pipeline.Stored
import DatasetPlan.Proofs.Json.Document
import DatasetPlan.Proofs.Storage.FileTree
import DatasetPlan.Proofs.Storage.Store
import DatasetPlan.Proofs.Storage.Atomicity
import DatasetPlan.Proofs.Template.Parameters
import DatasetPlan.Proofs.Template.Lists
