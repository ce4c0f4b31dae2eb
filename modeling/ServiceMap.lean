import ServiceMap.Main
import ServiceMap.Proofs.Acceptance
import ServiceMap.Proofs.Bookkeeping
import ServiceMap.Proofs.BoundaryReports
import ServiceMap.Proofs.CanonicalDigraph
import ServiceMap.Proofs.Clashes
import ServiceMap.Proofs.Collapse
import ServiceMap.Proofs.CycleInvariance
import ServiceMap.Proofs.DeepestRoot
import ServiceMap.Proofs.DotFaithful
import ServiceMap.Proofs.ElementaryCycles
import ServiceMap.Proofs.Endings
import ServiceMap.Proofs.Findings
import ServiceMap.Proofs.FullSink
import ServiceMap.Proofs.KnownKeys
import ServiceMap.Proofs.LanguageTotals
import ServiceMap.Proofs.Normalization
import ServiceMap.Proofs.OwnNames
import ServiceMap.Proofs.Placeholders
import ServiceMap.Proofs.RepeatedDependencies
import ServiceMap.Proofs.Resolution
import ServiceMap.Proofs.Restriction
import ServiceMap.Proofs.RootSpelling
import ServiceMap.Proofs.Runs
import ServiceMap.Proofs.ScanOrder
import ServiceMap.Proofs.Selection
