import GettextTemplate.Disk
import GettextTemplate.Main
import GettextTemplate.ModelTree.Writer
import GettextTemplate.Proofs.Failures
import GettextTemplate.Proofs.Meanings
import GettextTemplate.Proofs.Packages
import GettextTemplate.Proofs.Escapes
import GettextTemplate.Proofs.EmptyTexts
import GettextTemplate.Proofs.Pruning
import GettextTemplate.Proofs.Contexts
import GettextTemplate.Proofs.Repetitions
import GettextTemplate.Proofs.FailedRuns
import GettextTemplate.Proofs.Reorderings
import GettextTemplate.Proofs.Policy
import GettextTemplate.Proofs.Replacements
import GettextTemplate.Proofs.FinishedRuns
import GettextTemplate.Proofs.Faults
import GettextTemplate.Proofs.Phases
import GettextTemplate.Proofs.Endings
import GettextTemplate.Proofs.Subpackages
import GettextTemplate.Proofs.Readers
import GettextTemplate.Proofs.Strings
import GettextTemplate.Proofs.Values
import GettextTemplate.Proofs.StoredTrees
import GettextTemplate.Proofs.Confinement
import GettextTemplate.Proofs.Directories
import GettextTemplate.Proofs.Neighbours
import GettextTemplate.Proofs.Interleavings
import GettextTemplate.Proofs.Seats
import GettextTemplate.Proofs.Tracks
import GettextTemplate.Proofs.Coexistence
import GettextTemplate.Proofs.Noninterference
import GettextTemplate.Proofs.Sweeps
import GettextTemplate.Proofs.Annotations
import GettextTemplate.Proofs.Agreement
import GettextTemplate.Proofs.DottedNames
import GettextTemplate.Proofs.Catalogs
import GettextTemplate.Proofs.Layout
import GettextTemplate.Proofs.CreationDates
import GettextTemplate.Proofs.Grammar
import GettextTemplate.Proofs.Literals
import GettextTemplate.Proofs.Presentations
import GettextTemplate.Proofs.Serialisations
