import TaintPolicy.Main
import TaintPolicy.Project.Tree
import TaintPolicy.Json.Reader
import TaintPolicy.Proofs.Retention
import TaintPolicy.Proofs.AuthoredRule
import TaintPolicy.Proofs.Distinctness
import TaintPolicy.Proofs.CollidingIds
import TaintPolicy.Proofs.ReplacedEntry
import TaintPolicy.Proofs.Respelling
import TaintPolicy.Proofs.Fingerprint
import TaintPolicy.Proofs.VisibleParts
import TaintPolicy.Proofs.LegibleFiles
import TaintPolicy.Proofs.SavedState
import TaintPolicy.Proofs.FreeIds
import TaintPolicy.Proofs.PolicyNames
import TaintPolicy.Proofs.ChosenTools
import TaintPolicy.Proofs.KeptRules
import TaintPolicy.Proofs.AdoptedTemplate
import TaintPolicy.Proofs.LocalOperations
import TaintPolicy.Proofs.Toggling
import TaintPolicy.Proofs.MovedTool
import TaintPolicy.Proofs.AcceptedGates
import TaintPolicy.Proofs.RepeatedIds
import TaintPolicy.Proofs.DistinctKeys
import TaintPolicy.Proofs.ListedTools
