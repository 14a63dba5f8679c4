import BusClient.CInterface
import BusClient.Configuration.File
import BusClient.Socket
import BusClient.Proofs.Frame.Front
import BusClient.Proofs.Client.Course
import BusClient.Proofs.Client.Discipline
import BusClient.Proofs.Client.Verdict
import BusClient.Proofs.Json.Layout
import BusClient.Proofs.Json.Scan
import BusClient.Proofs.Json.Reading
import BusClient.Proofs.Message.Reading
import BusClient.Proofs.Wire.RoundTrip
import BusClient.Proofs.Json.Yield
import BusClient.Proofs.CInterface.Arguments
import BusClient.Proofs.Json.Indented
import BusClient.Proofs.CInterface.Effect
import BusClient.Proofs.Frame.Split
import BusClient.Proofs.Wire.Session
import BusClient.Proofs.Package.Completion
import BusClient.Proofs.Client.Screening
import BusClient.Proofs.Wire.Requests
import BusClient.Proofs.Package.Refusal
import BusClient.Proofs.Client.Records
import BusClient.Proofs.Wire.Framing
import BusClient.Proofs.Json.Skipping
import BusClient.Proofs.Json.Judging
import BusClient.Proofs.Wire.Grammar
import BusClient.Proofs.Json.Token
import BusClient.Proofs.Json.Spelling
import BusClient.Proofs.Json.Settling
import BusClient.Proofs.Json.Tokenwise
import BusClient.Proofs.Package.Tokens
import BusClient.Proofs.Client.Integers
import BusClient.Proofs.CInterface.Status
import BusClient.Proofs.Text.Order
import BusClient.Proofs.Toml.Names
import BusClient.Proofs.Configuration.Shape
