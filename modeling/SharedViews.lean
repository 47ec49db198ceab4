import SharedViews.Inspection.Effect
import SharedViews.Main
import SharedViews.Scope.Table
import SharedViews.Template.Library
import SharedViews.Timeline
import SharedViews.Proofs.Presence.Timers
import SharedViews.Proofs.Moments
import SharedViews.Proofs.Scope.Membership
import SharedViews.Proofs.Scope.Roll
import SharedViews.Proofs.Scope.FlatTable
import SharedViews.Proofs.Scope.TextForm
import SharedViews.Proofs.View.Occupancy
import SharedViews.Proofs.View.History
import SharedViews.Proofs.Render.Slots
import SharedViews.Proofs.Render.Turns
import SharedViews.Proofs.Render.History
import SharedViews.Proofs.Render.Coherence
import SharedViews.Proofs.Render.SingleFlight
import SharedViews.Proofs.Render.Leaders
import SharedViews.Proofs.Render.Ownership
import SharedViews.Proofs.Render.Waiting
import SharedViews.Proofs.Render.Completion
import SharedViews.Proofs.Render.Failure
import SharedViews.Proofs.Render.Privacy
import SharedViews.Proofs.Presence.Setters
import SharedViews.Proofs.Presence.Deeds
import SharedViews.Proofs.Presence.Agreement
import SharedViews.Proofs.Presence.Reclamation
import SharedViews.Proofs.Presence.Standing
import SharedViews.Proofs.Presence.Firing
import SharedViews.Proofs.Presence.Underway
import SharedViews.Proofs.Engine.Deeds
import SharedViews.Proofs.Engine.Teardown
import SharedViews.Proofs.Engine.Reconnection
import SharedViews.Proofs.Engine.Workings
import SharedViews.Proofs.Presence.Clocked
import SharedViews.Proofs.Presence.Grace
import SharedViews.Proofs.Engine.Pace
import SharedViews.Proofs.Engine.Timelines
import SharedViews.Proofs.Engine.Grace
import SharedViews.Proofs.Engine.Acts
import SharedViews.Proofs.Engine.Visits
import SharedViews.Proofs.Engine.Tally
import SharedViews.Proofs.Engine.Shell
import SharedViews.Proofs.Template.Division
import SharedViews.Proofs.Text.Trimming
import SharedViews.Proofs.Template.Filling
import SharedViews.Proofs.Template.Gaps
import SharedViews.Proofs.Text.ByteOrder
import SharedViews.Proofs.Document.Tokens
import SharedViews.Proofs.Document.Bindings
import SharedViews.Proofs.Document.Fragment
import SharedViews.Proofs.Document.RootTag
import SharedViews.Proofs.Document.Settled
import SharedViews.Proofs.Inspection.Confinement
import SharedViews.Proofs.Decimal.Numerals
import SharedViews.Proofs.Json.OneLine
import SharedViews.Proofs.Inspection.Answers
import SharedViews.Proofs.Inspection.Listing
import SharedViews.Proofs.Inspection.Printout
import SharedViews.Proofs.Engine.FirstLoads
