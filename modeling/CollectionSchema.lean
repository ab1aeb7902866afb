import CollectionSchema.Compilation
import CollectionSchema.Boundary.EnvFile
import CollectionSchema.Boundary.Models
import CollectionSchema.Proofs.Artifact.Insertion
import CollectionSchema.Proofs.Artifact.Reference
import CollectionSchema.Proofs.Artifact.Reordering
import CollectionSchema.Proofs.Builder.History
import CollectionSchema.Proofs.Builder.Verdict
import CollectionSchema.Proofs.Artifact.Accessors
import CollectionSchema.Proofs.Text.Words
import CollectionSchema.Proofs.Artifact.Identifiers
import CollectionSchema.Proofs.Fragments
import CollectionSchema.Proofs.Artifact.Closed
import CollectionSchema.Proofs.Compilation
import CollectionSchema.Proofs.Builder.Repeated
import CollectionSchema.Proofs.Hierarchy.Lifetimes
import CollectionSchema.Proofs.Layout.Blocks
import CollectionSchema.Proofs.Artifact.Blocks
import CollectionSchema.Proofs.Path.Grammar
import CollectionSchema.Proofs.Path.Ancestors
import CollectionSchema.Proofs.Graph.PreOrder
import CollectionSchema.Proofs.Graph.Walk
import CollectionSchema.Proofs.Builder.Decision
import CollectionSchema.Proofs.Declaration.Codecs
import CollectionSchema.Proofs.Artifact.Stored
import CollectionSchema.Proofs.Artifact.Updates
import CollectionSchema.Proofs.Grouping
import CollectionSchema.Proofs.Text.Lossless
import CollectionSchema.Proofs.Settings.Names
import CollectionSchema.Proofs.TypeHint.Grammar
import CollectionSchema.Proofs.TypeHint.Trees
