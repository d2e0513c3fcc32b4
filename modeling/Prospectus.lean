import Prospectus.Main
import Prospectus.Proofs.Availability.CalendarRange
import Prospectus.Proofs.Availability.Latest
import Prospectus.Proofs.Availability.Listings
import Prospectus.Proofs.Availability.Refusals
import Prospectus.Proofs.Availability.RulesByYear
import Prospectus.Proofs.Catalog.Cleaning
import Prospectus.Proofs.Catalog.Summary
import Prospectus.Proofs.Command.AllOrNothing
import Prospectus.Proofs.Command.Cleaning
import Prospectus.Proofs.Command.Rebuilding
import Prospectus.Proofs.Json.Canonical
import Prospectus.Proofs.Rebuild.Cleaning
import Prospectus.Proofs.Rebuild.Coverage
import Prospectus.Proofs.Rebuild.Failures
import Prospectus.Proofs.Rebuild.InputOrder
import Prospectus.Proofs.Rebuild.Stored
import Prospectus.Proofs.Reconcile.Accounting
import Prospectus.Proofs.Reconcile.Accumulation
import Prospectus.Proofs.Reconcile.RecordOrder
import Prospectus.Proofs.Record.Lossless
import Prospectus.Proofs.Scrub.Dropped
import Prospectus.Proofs.Scrub.Facts
import Prospectus.Proofs.Scrub.Rounds
import Prospectus.Proofs.Settings.Layers
import Prospectus.Proofs.Settings.Pointers
import Prospectus.Proofs.Settings.Unused
import Prospectus.Proofs.Store.SnapshotDirectory
import Prospectus.Rebuild.Fixture
import Prospectus.Settings.Unused
