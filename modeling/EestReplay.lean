import EestReplay.Library.Dialogue
import EestReplay.Library.Runs
import EestReplay.Library.Interleaving
import EestReplay.Verification.Proxy.Recorder
import EestReplay.Verification.Proxy.Capture
import EestReplay.Verification.Proxy.Phantoms
import EestReplay.Verification.Proxy.Order
import EestReplay.Library.Digits
import EestReplay.Model.Text
import EestReplay.Verification.Text.Numerals
import EestReplay.Model.Host
import EestReplay.Library.Footprint
import EestReplay.Model.Recover
import EestReplay.Model.Export
import EestReplay.Verification.Submit.Semantics
import EestReplay.Verification.Submit.Sidecar
import EestReplay.Verification.Submit.Survival
import EestReplay.Verification.Recover.Reclaim
import EestReplay.Model.Payload
import EestReplay.Model.Simbuild
import EestReplay.Model.Buildoor
import EestReplay.Model.Runner
import EestReplay.Verification.Build.Attributes
import EestReplay.Verification.Chain.Semantics
import EestReplay.Verification.Chain.Verdict
import EestReplay.Verification.Chain.Heads
import EestReplay.Library.Dict
import EestReplay.Model.Genesis
import EestReplay.Verification.Genesis.Forks
import EestReplay.Verification.Genesis.RoundTrip
import EestReplay.Library.Nesting
import EestReplay.Model.Http
import EestReplay.Verification.Proxy.Transparency
import EestReplay.Model.Machine
import EestReplay.Model.Report
import EestReplay.Model.Batch
import EestReplay.Verification.Batch.Walk
import EestReplay.Verification.Batch.Reports
import EestReplay.Model.Replay
import EestReplay.Verification.Chain.Faults
import EestReplay.Verification.Batch.Failures
import EestReplay.Verification.Recover.Account
import EestReplay.Verification.Recover.Stranded
import EestReplay.Library.Ledger
import EestReplay.Verification.Recover.Waiting
import EestReplay.Verification.Recover.Report
import EestReplay.Verification.Recover.Node
import EestReplay.Verification.Recover.Conservation
import EestReplay.Verification.Recover.Rerun
import EestReplay.Verification.Batch.Summary
import EestReplay.Verification.Genesis.Storage
import EestReplay.Verification.Proxy.Batches
import EestReplay.Verification.Build.Absence
import EestReplay.Verification.Recover.Validity
import EestReplay.Verification.Submit.Preflight
import EestReplay.Model.Csv
import EestReplay.Verification.Submit.Rows
import EestReplay.Library.Returns
import EestReplay.Verification.Batch.Hollow
import EestReplay.Verification.Batch.Calm
import EestReplay.Model.Throwaway
import EestReplay.Verification.Submit.Verdicts
import EestReplay.Verification.Batch.Success
import EestReplay.Library.Base64
import EestReplay.Library.Percent
import EestReplay.Model.Lower
import EestReplay.Model.Url
import EestReplay.Verification.Text.Lower
import EestReplay.Verification.Url.Split
import EestReplay.Verification.Url.Endpoint
import EestReplay.Verification.Url.Credentials
import EestReplay.Verification.Build.Grammar
import EestReplay.Library.Trail
import EestReplay.Verification.Batch.Directories
import EestReplay.Model.Engine
import EestReplay.Verification.Build.Slots
import EestReplay.Library.Following
import EestReplay.Model.Bloat
import EestReplay.Verification.Session.Bloat
import EestReplay.Verification.Session.Run
import EestReplay.Verification.Files.Csv
import EestReplay.Verification.Files.Export
import EestReplay.Library.Relating
import EestReplay.Model.Handler
import EestReplay.Verification.Build.Handler
import EestReplay.Verification.Build.Modes
import EestReplay.Verification.Session.Waiting
import EestReplay.Library.Logging
import EestReplay.Verification.Batch.Exit
import EestReplay.Library.Total
import EestReplay.Verification.Batch.Honest
import EestReplay.Verification.Batch.Told
import EestReplay.Verification.Files.Bloat
