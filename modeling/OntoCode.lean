import OntoCode.Entities.Loading
import OntoCode.Entities.Writing
import OntoCode.Main
import OntoCode.Proofs.Hierarchy
import OntoCode.Proofs.Sorting
import OntoCode.Proofs.Queries
import OntoCode.Proofs.Remembered
import OntoCode.Proofs.InsertionOrder
import OntoCode.Proofs.Writing
import OntoCode.Proofs.Attributes
import OntoCode.Proofs.Written
import OntoCode.Proofs.Linking
import OntoCode.Proofs.Loading
import OntoCode.Proofs.RoundTrip
import OntoCode.Proofs.Pairing
import OntoCode.Proofs.Effects
import OntoCode.Proofs.Readings
import OntoCode.Proofs.Sessions
import OntoCode.Proofs.LoadedOnce
import OntoCode.Proofs.FileNames
import OntoCode.Proofs.Superclasses
import OntoCode.Proofs.Runs
import OntoCode.Proofs.Creators
import OntoCode.Proofs.Constants
import OntoCode.Proofs.MemberNames
import OntoCode.Proofs.Identifiers
import OntoCode.Proofs.BaseClasses
import OntoCode.Proofs.Inverses
import OntoCode.Proofs.InheritedNames
import OntoCode.Proofs.Reloading
import OntoCode.Proofs.DepthOrder
import OntoCode.Proofs.Requests
import OntoCode.Proofs.Agreement
import OntoCode.Proofs.Rereading
import OntoCode.Proofs.Conversions
import OntoCode.Proofs.InverseCollections
import OntoCode.Proofs.FieldNames
import OntoCode.Proofs.Emission
import OntoCode.Proofs.Walks
import OntoCode.Proofs.EndlessLists
import OntoCode.Proofs.WrittenLists
import OntoCode.Proofs.Docstrings
import OntoCode.Proofs.Lineages
import OntoCode.Proofs.Specificity
import OntoCode.Proofs.CollectionNames
import OntoCode.Proofs.Comments
import OntoCode.Proofs.Vocabularies
import OntoCode.Proofs.Kinds
import OntoCode.Proofs.Accessors
import OntoCode.Proofs.PrivateNames
import OntoCode.Proofs.Scopes
import OntoCode.Proofs.Captures
import OntoCode.Proofs.Ascents
import OntoCode.Proofs.Spellings
import OntoCode.Proofs.PreferredLiterals
