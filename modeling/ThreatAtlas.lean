import ThreatAtlas.Draft.Trial
import ThreatAtlas.Client
import ThreatAtlas.Agent
import ThreatAtlas.Dashboard.Page
import ThreatAtlas.Main
import ThreatAtlas.Proofs.Report.Coherence
import ThreatAtlas.Proofs.Dashboard.Conversation
import ThreatAtlas.Proofs.Feed.Retirement
import ThreatAtlas.Proofs.Correlation.Quoting
import ThreatAtlas.Proofs.Feed.Aliases
import ThreatAtlas.Proofs.Incident.Resumption
import ThreatAtlas.Proofs.ExactNames
import ThreatAtlas.Proofs.Report.Preservation
import ThreatAtlas.Proofs.Report.Observed
import ThreatAtlas.Proofs.Correlation.Evidence
import ThreatAtlas.Proofs.Incident.AttackFlow
import ThreatAtlas.Proofs.Indicator.WholeWords
import ThreatAtlas.Proofs.Indicator.Links
import ThreatAtlas.Proofs.Incident.Extraction
import ThreatAtlas.Proofs.Incident.Appending
import ThreatAtlas.Proofs.Toolbox.PathRanking
import ThreatAtlas.Proofs.Toolbox.FuzzySearch
import ThreatAtlas.Proofs.Toolbox.Labels
import ThreatAtlas.Proofs.Feed.Catalogue
import ThreatAtlas.Proofs.Dashboard.IncidentFlow
import ThreatAtlas.Proofs.Draft.Refinement
import ThreatAtlas.Proofs.Explorer.Suggestions
import ThreatAtlas.Proofs.Indicator.LooseHosts
import ThreatAtlas.Proofs.Profile.QuickSelect
import ThreatAtlas.Proofs.Correlation.Escaping
import ThreatAtlas.Proofs.Report.Admission
import ThreatAtlas.Proofs.Feed.Independence
import ThreatAtlas.Proofs.Correlation.Hints
