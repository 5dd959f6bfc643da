import HiddenTarget.Complaint
import HiddenTarget.Console.Options
import HiddenTarget.Console.Program
import HiddenTarget.Console.Usage
import HiddenTarget.Decimal.Binary
import HiddenTarget.Decimal.Integer
import HiddenTarget.Decimal.Layout
import HiddenTarget.Decimal.Literal
import HiddenTarget.Decimal.Shortest
import HiddenTarget.Disk.Basic
import HiddenTarget.Disk.Path
import HiddenTarget.Forms
import HiddenTarget.Game.Environment
import HiddenTarget.Game.Fleet
import HiddenTarget.Game.Outcome
import HiddenTarget.Game.Rules
import HiddenTarget.Json.Basic
import HiddenTarget.Json.Printer
import HiddenTarget.Json.Reader
import HiddenTarget.Json.Scanner
import HiddenTarget.Json.Shape
import HiddenTarget.Json.Skip
import HiddenTarget.Main
import HiddenTarget.Play.Batch
import HiddenTarget.Play.Episode
import HiddenTarget.Play.Joined
import HiddenTarget.Play.Output
import HiddenTarget.Play.Plan
import HiddenTarget.Play.Policy
import HiddenTarget.Play.Summary
import HiddenTarget.Play.Transcript
import HiddenTarget.Proofs.Console.CommandLine
import HiddenTarget.Proofs.Console.Errors
import HiddenTarget.Proofs.Console.NoWait
import HiddenTarget.Proofs.Console.Presentation
import HiddenTarget.Proofs.Console.Refusal
import HiddenTarget.Proofs.Console.Spelling
import HiddenTarget.Proofs.Console.Waiting
import HiddenTarget.Proofs.Decimal.Addition
import HiddenTarget.Proofs.Decimal.Characters
import HiddenTarget.Proofs.Decimal.Digits
import HiddenTarget.Proofs.Decimal.Grammar
import HiddenTarget.Proofs.Decimal.Packing
import HiddenTarget.Proofs.Decimal.Rounding
import HiddenTarget.Proofs.Decimal.Unpacked
import HiddenTarget.Proofs.Disk.Ancestors
import HiddenTarget.Proofs.Disk.Append
import HiddenTarget.Proofs.Disk.Location
import HiddenTarget.Proofs.Game.Bounds
import HiddenTarget.Proofs.Game.Course
import HiddenTarget.Proofs.Game.Lanes
import HiddenTarget.Proofs.Game.Run
import HiddenTarget.Proofs.Game.SeedStream
import HiddenTarget.Proofs.Json.Members
import HiddenTarget.Proofs.Json.Number
import HiddenTarget.Proofs.Json.Printable
import HiddenTarget.Proofs.Json.ReadBack
import HiddenTarget.Proofs.Play.Agreement
import HiddenTarget.Proofs.Play.Bounds
import HiddenTarget.Proofs.Play.Budget
import HiddenTarget.Proofs.Play.Drive
import HiddenTarget.Proofs.Play.Joined
import HiddenTarget.Proofs.Play.LastFlush
import HiddenTarget.Proofs.Play.Limited
import HiddenTarget.Proofs.Play.Oblivious
import HiddenTarget.Proofs.Play.Performance
import HiddenTarget.Proofs.Play.Prefix
import HiddenTarget.Proofs.Play.Streams
import HiddenTarget.Proofs.Play.Total
import HiddenTarget.Proofs.Play.Trajectory
import HiddenTarget.Proofs.Play.Unlimited
import HiddenTarget.Proofs.Random.Range
import HiddenTarget.Proofs.Random.Reading
import HiddenTarget.Proofs.Random.Uniform
import HiddenTarget.Proofs.Scripting.FleetSession
import HiddenTarget.Proofs.Scripting.InPlace
import HiddenTarget.Proofs.Scripting.Integers
import HiddenTarget.Proofs.Scripting.Refinement
import HiddenTarget.Proofs.Scripting.Session
import HiddenTarget.Proofs.Settings.Override
import HiddenTarget.Proofs.Settings.Report
import HiddenTarget.Proofs.Telemetry.Appending
import HiddenTarget.Proofs.Telemetry.Calls
import HiddenTarget.Proofs.Telemetry.Delivery
import HiddenTarget.Proofs.Telemetry.Faults
import HiddenTarget.Proofs.Telemetry.Footprint
import HiddenTarget.Proofs.Telemetry.Frame
import HiddenTarget.Proofs.Telemetry.Lifetime
import HiddenTarget.Proofs.Telemetry.Lines
import HiddenTarget.Proofs.Telemetry.Place
import HiddenTarget.Proofs.Telemetry.Sessions
import HiddenTarget.Proofs.Telemetry.Warnings
import HiddenTarget.Proofs.Telemetry.Writes
import HiddenTarget.Random.Draw
import HiddenTarget.Random.KeyStream
import HiddenTarget.Scripting.Exports
import HiddenTarget.Scripting.Inherited
import HiddenTarget.Scripting.Object
import HiddenTarget.Scripting.Value
import HiddenTarget.Settings.Override
import HiddenTarget.Telemetry.Channel
import HiddenTarget.Telemetry.Record
import HiddenTarget.Telemetry.Setup
import HiddenTarget.Telemetry.Sink
import HiddenTarget.Text.Blank
import HiddenTarget.Text.Control
import HiddenTarget.Text.Glyph
import HiddenTarget.Text.Quoted
import HiddenTarget.Text.Styled
