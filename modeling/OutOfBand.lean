import OutOfBand.Json.Reader
import OutOfBand.Main
import OutOfBand.Proofs.Inventory.Selection
import OutOfBand.Proofs.Sequence
import OutOfBand.Rehearsal
import OutOfBand.Proofs.Fleet.Hosts
import OutOfBand.Proofs.Fleet.Narrowing
import OutOfBand.Proofs.Fleet.Outcome
import OutOfBand.Proofs.Fleet.Matching
import OutOfBand.Proofs.Fleet.Rearrangement
import OutOfBand.Proofs.Fleet.Request
import OutOfBand.Proofs.Redfish.Users
import OutOfBand.Proofs.Fleet.Comparison
import OutOfBand.Proofs.Fleet.Discretion
import OutOfBand.Proofs.Remote.Ensures
import OutOfBand.Proofs.Remote.Heedless
import OutOfBand.Proofs.Remote.History
import OutOfBand.Proofs.Redfish.Reboot
import OutOfBand.Proofs.Redfish.Operations
import OutOfBand.Proofs.Exact
import OutOfBand.Proofs.Redfish.Bounds
import OutOfBand.Proofs.Redfish.Failures
import OutOfBand.Proofs.Redfish.Media
import OutOfBand.Proofs.Redfish.Boot
import OutOfBand.Proofs.Batch.Direct
import OutOfBand.Proofs.Remote.Isolation
import OutOfBand.Proofs.Batch.Lanes
import OutOfBand.Proofs.Batch.SideBySide
import OutOfBand.Proofs.Redfish.Isolation
import OutOfBand.Proofs.Inventory.Secrets
import OutOfBand.Proofs.Batch.Stories
import OutOfBand.Proofs.Batch.Accounts
import OutOfBand.Proofs.Batch.Attempts
import OutOfBand.Proofs.Fleet.Notices
import OutOfBand.Proofs.CommandLine.ExitCodes
import OutOfBand.Proofs.Label.Reading
import OutOfBand.Proofs.Fleet.Clients
import OutOfBand.Proofs.Remote.Rounds
import OutOfBand.Proofs.Remote.Unbounded
import OutOfBand.Proofs.Redfish.Attempts
import OutOfBand.Proofs.Redfish.Switching
import OutOfBand.Proofs.Redfish.Search
import OutOfBand.Proofs.Redfish.Ejecting
import OutOfBand.Proofs.Redfish.Heedless
import OutOfBand.Proofs.Redfish.Importing
import OutOfBand.Proofs.Redfish.Inserting
import OutOfBand.Proofs.Batch.Observers
import OutOfBand.Proofs.Text.Base64
import OutOfBand.Proofs.Inventory.Credentials
import OutOfBand.Proofs.Inventory.Encoded
import OutOfBand.Proofs.Fleet.Bystanders
import OutOfBand.Proofs.CommandLine.Refusals
import OutOfBand.Proofs.Label.Keys
import OutOfBand.Proofs.Files.Tree
import OutOfBand.Proofs.Inventory.Listing
import OutOfBand.Proofs.Inventory.Phases
import OutOfBand.Proofs.CommandLine.Misreading
import OutOfBand.Proofs.Remote.Pauses
import OutOfBand.Proofs.Report.EventFile
import OutOfBand.Proofs.Redfish.Announcements
import OutOfBand.Proofs.Inventory.HostText
import OutOfBand.Proofs.Redfish.Polling
import OutOfBand.Proofs.Batch.Voices
import OutOfBand.Proofs.Yaml.Merging
