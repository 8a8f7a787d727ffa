import WebAudit.Main
import WebAudit.Service.Handle
import WebAudit.Proofs.BigIntegers
import WebAudit.Proofs.Breakdowns
import WebAudit.Proofs.CacheFaults
import WebAudit.Proofs.CacheRoundTrip
import WebAudit.Proofs.ConfigFaults
import WebAudit.Proofs.DocumentPlaces
import WebAudit.Proofs.FileFilters
import WebAudit.Proofs.FoundFiles
import WebAudit.Proofs.IndexComparisons
import WebAudit.Proofs.InterfaceUses
import WebAudit.Proofs.ListlessPayloads
import WebAudit.Proofs.LooserRules
import WebAudit.Proofs.MergeLaws
import WebAudit.Proofs.MisshapenCaches
import WebAudit.Proofs.MovedFeatures
import WebAudit.Proofs.PropertyTable
import WebAudit.Proofs.Remerging
import WebAudit.Proofs.ScanCommand
import WebAudit.Proofs.ScoreRange
import WebAudit.Proofs.ScoreRounding
import WebAudit.Proofs.ScriptDialects
import WebAudit.Proofs.StyleBlocks
import WebAudit.Proofs.StyleCourse
import WebAudit.Proofs.WrittenSettings
