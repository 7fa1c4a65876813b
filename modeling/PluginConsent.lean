import PluginConsent.Main
import PluginConsent.Proofs.Review
import PluginConsent.Proofs.Rule.Reduce
import PluginConsent.Proofs.Settings.ReadBack
import PluginConsent.Proofs.Files.Ancestors
import PluginConsent.Proofs.Settings.Frame
import PluginConsent.Proofs.Json.Lists
import PluginConsent.Proofs.Settings.Clean
import PluginConsent.Proofs.Review.Session
import PluginConsent.Proofs.Files.Direct
import PluginConsent.Proofs.Manifest
import PluginConsent.Proofs.Scan
import PluginConsent.Proofs.Confined
import PluginConsent.Proofs.Category
import PluginConsent.Proofs.Category.Filing
import PluginConsent.Proofs.Review.Plan
import PluginConsent.Proofs.Rule.Grammar
import PluginConsent.Proofs.Rule.Bridge
import PluginConsent.Proofs.Settings.Race
import PluginConsent.Proofs.Review.Repeat
import PluginConsent.Proofs.Rule.Canonical
import PluginConsent.Proofs.Rule.Inclusion
import PluginConsent.Proofs.Settings.Collapse
import PluginConsent.Proofs.Policy.Conflict
import PluginConsent.Proofs.Settings.Root
import PluginConsent.Proofs.CommandLine.Lines
import PluginConsent.Proofs.CommandLine.Plan
import PluginConsent.Proofs.Rule.Cut
import PluginConsent.Proofs.Rule.Mutual
import PluginConsent.Proofs.Bounded
