import Tariff.Address
import Tariff.Amount
import Tariff.Assembly
import Tariff.Asset
import Tariff.Catalogue
import Tariff.Command.Arguments
import Tariff.Command.Basic
import Tariff.Command.Files
import Tariff.Command.Run
import Tariff.Context
import Tariff.Currency
import Tariff.Digest
import Tariff.Document.Asset
import Tariff.Document.Basic
import Tariff.Document.Currency
import Tariff.Document.Price
import Tariff.Document.Program
import Tariff.Document.Registration
import Tariff.Http.Form
import Tariff.Http.MediaType
import Tariff.Http.Message
import Tariff.Http.Route
import Tariff.Http.Service
import Tariff.Journal
import Tariff.Json.Number
import Tariff.Json.Reader
import Tariff.Json.Record
import Tariff.Json.Token
import Tariff.Json.Value
import Tariff.Machine
import Tariff.Main
import Tariff.Opcode
import Tariff.Pricing
import Tariff.Program
import Tariff.Program.Fingerprint
import Tariff.Proofs.Machine.Execute
import Tariff.Proofs.Machine.Height
import Tariff.Proofs.Program.Pool
import Tariff.Script
import Tariff.Text.Blank
import Tariff.Text.Decimal
import Tariff.Text.Double
import Tariff.Text.Hex
import Tariff.Text.Hidden
import Tariff.Text.Quoted
import Tariff.Text.Upper
import Tariff.Text.Utf8
import Tariff.Timestamp
import Tariff.Proofs.Catalogue.Session
import Tariff.Proofs.Catalogue.Refinement
import Tariff.Proofs.Catalogue.Bounds
import Tariff.Proofs.Pricing.Shape
import Tariff.Proofs.Pricing.Quote
import Tariff.Proofs.Machine.Manual
import Tariff.Proofs.Assembly.Assembler
import Tariff.Proofs.Text.Blank
import Tariff.Proofs.Assembly.Grammar
import Tariff.Proofs.Text.Decimal
import Tariff.Proofs.Assembly.Layout
import Tariff.Proofs.Assembly.Phrase
import Tariff.Proofs.Assembly.Listing
import Tariff.Proofs.Assembly.Reassembly
import Tariff.Proofs.Script.Encoding
import Tariff.Proofs.Document.Basic
import Tariff.Proofs.Document.RoundTrip
import Tariff.Proofs.Program.Fingerprint
import Tariff.Proofs.Command.Compile
import Tariff.Proofs.Http.Registration
import Tariff.Proofs.Catalogue.Offers
import Tariff.Proofs.Machine.Frame
import Tariff.Proofs.Pricing.Composition
import Tariff.Proofs.Http.History
import Tariff.Proofs.Pricing.Dependence
import Tariff.Proofs.Machine.Trace
import Tariff.Proofs.Machine.Depth
import Tariff.Proofs.Pricing.Capacity
import Tariff.Proofs.Http.Form
import Tariff.Proofs.Text.Numeral
import Tariff.Proofs.Http.Pricing
import Tariff.Proofs.Text.Reading
import Tariff.Proofs.Text.Address
import Tariff.Proofs.Json.Room
import Tariff.Proofs.Json.Widening
import Tariff.Proofs.Command.Load
import Tariff.Proofs.Http.OfferFile
import Tariff.Proofs.Document.Position
import Tariff.Proofs.Http.Amounts
