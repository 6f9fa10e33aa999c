import TypedValues.Decimal.Notation
import TypedValues.Decimal.Shortest
import TypedValues.Error
import TypedValues.Proofs.Classes
import TypedValues.Proofs.Outcome
import TypedValues.Proofs.Parts
import TypedValues.Proofs.Table
import TypedValues.Proofs.Trie.Algebra
import TypedValues.Proofs.Trie.AssociationList
import TypedValues.Proofs.Trie.Digits
import TypedValues.Proofs.Trie.Distinct
import TypedValues.Proofs.Trie.Equality
import TypedValues.Proofs.Trie.Erase
import TypedValues.Proofs.Trie.Invariant
import TypedValues.Proofs.Trie.Lookup
import TypedValues.Proofs.Trie.Order
import TypedValues.Proofs.Trie.Put
import TypedValues.Proofs.Trie.Representation
import TypedValues.Proofs.Trie.Root
import TypedValues.Proofs.Trie.Shape
import TypedValues.Proofs.Trie.Traversal
import TypedValues.Proofs.Trie.Walk
import TypedValues.Proofs.Trie.WellFormed
import TypedValues.Proofs.Ty.Aliases
import TypedValues.Proofs.Ty.Antisymmetry
import TypedValues.Proofs.Ty.Bound
import TypedValues.Proofs.Ty.Described
import TypedValues.Proofs.Ty.Equivalent
import TypedValues.Proofs.Ty.Grouping
import TypedValues.Proofs.Ty.Join
import TypedValues.Proofs.Ty.JoinAll
import TypedValues.Proofs.Ty.Least
import TypedValues.Proofs.Ty.Parts
import TypedValues.Proofs.Ty.Shape
import TypedValues.Proofs.Ty.Subtype
import TypedValues.Proofs.Universe.Annotation
import TypedValues.Proofs.Universe.AnnotationTable
import TypedValues.Proofs.Universe.Cache
import TypedValues.Proofs.Universe.Chronicle
import TypedValues.Proofs.Universe.Declare
import TypedValues.Proofs.Universe.Limit
import TypedValues.Proofs.Universe.Purge
import TypedValues.Proofs.Universe.Rebuild
import TypedValues.Proofs.Universe.Refusal
import TypedValues.Proofs.Universe.Registry
import TypedValues.Proofs.Universe.Retention
import TypedValues.Proofs.Universe.Transfer
import TypedValues.Proofs.Value.Closure
import TypedValues.Proofs.Value.Composition
import TypedValues.Proofs.Value.Contents
import TypedValues.Proofs.Value.ElementType
import TypedValues.Proofs.Value.Equality
import TypedValues.Proofs.Value.History
import TypedValues.Proofs.Value.Irredundant
import TypedValues.Proofs.Value.Labels
import TypedValues.Proofs.Value.Lawful
import TypedValues.Proofs.Value.List
import TypedValues.Proofs.Value.ListRelation
import TypedValues.Proofs.Value.Literal
import TypedValues.Proofs.Value.Lookup
import TypedValues.Proofs.Value.Map
import TypedValues.Proofs.Value.Members
import TypedValues.Proofs.Value.Mirror
import TypedValues.Proofs.Value.Naming
import TypedValues.Proofs.Value.Node
import TypedValues.Proofs.Value.Origin
import TypedValues.Proofs.Value.Overload
import TypedValues.Proofs.Value.Product
import TypedValues.Proofs.Value.Reachable
import TypedValues.Proofs.Value.Relabeled
import TypedValues.Proofs.Value.Relation
import TypedValues.Proofs.Value.Removal
import TypedValues.Proofs.Value.Rows
import TypedValues.Proofs.Value.Session
import TypedValues.Proofs.Value.Set
import TypedValues.Proofs.Value.Stored
import TypedValues.Proofs.Value.Symmetry
import TypedValues.Proofs.Value.Tuple
import TypedValues.Proofs.Value.WellTyped
import TypedValues.Proofs.Value.Writer
import TypedValues.Proofs.Value.Writing
import TypedValues.Table
import TypedValues.Text.Alphabetic
import TypedValues.Text.CharSet
import TypedValues.Text.GraphemeExtend
import TypedValues.Text.Identifier
import TypedValues.Text.Numeric
import TypedValues.Text.Quoted
import TypedValues.Text.Unprintable
import TypedValues.Trie.Basic
import TypedValues.Trie.Cursor
import TypedValues.Trie.Members
import TypedValues.Trie.Multimap
import TypedValues.Ty.Basic
import TypedValues.Ty.Descriptor
import TypedValues.Ty.Document
import TypedValues.Ty.Equality
import TypedValues.Ty.Join
import TypedValues.Ty.Order
import TypedValues.Ty.Projection
import TypedValues.Ty.Text
import TypedValues.Universe.Basic
import TypedValues.Universe.Declare
import TypedValues.Universe.Interner
import TypedValues.Universe.Rebuild
import TypedValues.Universe.TypeExpr
import TypedValues.Value.Basic
import TypedValues.Value.Equality
import TypedValues.Value.List
import TypedValues.Value.ListRelation
import TypedValues.Value.Map
import TypedValues.Value.Members
import TypedValues.Value.Node
import TypedValues.Value.Relation
import TypedValues.Value.Set
import TypedValues.Value.Text
import TypedValues.Value.Tuple
import TypedValues.Value.Visitor
import TypedValues.Value.Writer
