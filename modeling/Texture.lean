import Texture.Number.Order
import Texture.Number.Text
import Texture.Number.Reader
import Texture.Number.Root
import Texture.Number.Angle
import Texture.Number.Power
import Texture.Fault
import Texture.Color
import Texture.Resolution
import Texture.Pixel
import Texture.Buffer
import Texture.Picture
import Texture.Text.Blank
import Texture.Text.Base64
import Texture.Zlib.Inflate
import Texture.Zlib.Checksum
import Texture.Zlib.Stream
import Texture.Png.Chunk
import Texture.Png.Scanline
import Texture.Png.Preamble
import Texture.Png.Image
import Texture.Picture.Payload
import Texture.Bytes
import Texture.Text.Hidden
import Texture.Text.Quoted
import Texture.Json.Basic
import Texture.Json.Lexeme
import Texture.Json.Token
import Texture.Json.Refusal
import Texture.Json.Draft
import Texture.Json.Reading
import Texture.Json.Printer
import Texture.Operator.Kind
import Texture.Graph.Basic
import Texture.Graph.Index
import Texture.Graph.Stored
import Texture.Project
import Texture.Plane.Affine
import Texture.Plane.Path
import Texture.Plane.Outline
import Texture.Xml.Element
import Texture.Svg.Node
import Texture.Svg.Definitions
import Texture.Svg.Document
import Texture.Operator.Gradient
import Texture.Operator.Settings
import Texture.Operator.Decode
import Texture.Session
import Texture.Artifact
import Texture.Bake
import Texture.Operator.Shapes
import Texture.Operator.Silhouette
import Texture.Operator.Swatches
import Texture.Operator.Combine
import Texture.Operator.Restyle
import Texture.Operator.Soften
import Texture.Operator.Place
import Texture.Operator.Pixelate
import Texture.Operator.Polar
import Texture.Operator.Apply
import Texture.Evaluate
import Texture.Xml.Character
import Texture.Xml.Tag
import Texture.Xml.Reader
import Texture.Xml.Scan
import Texture.Xml.Reference
import Texture.Xml.Token
import Texture.Xml.Prolog
import Texture.Xml.Document
import Texture.Xml.Namespace
import Texture.Svg.View
import Texture.Svg.Source
import Texture.Painter
import Texture.Operator.Listing
import Texture.CommandLine
import Texture.Main
import Texture.Proofs.Work
import Texture.Proofs.Graph.Order
import Texture.Proofs.Evaluate.Schedule
import Texture.Proofs.Evaluate.Run
import Texture.Proofs.Operator.Fault
import Texture.Proofs.Evaluate.Calls
import Texture.Proofs.Evaluate.Cycle
import Texture.Proofs.Svg.Scope
import Texture.Proofs.Bake
import Texture.Proofs.Operator.Scope
import Texture.Proofs.Evaluate.Scope
import Texture.Proofs.Operator.Rename
import Texture.Proofs.Evaluate.Unshared
import Texture.Proofs.Evaluate.Sharing
import Texture.Proofs.Buffer
import Texture.Proofs.Requests
import Texture.Proofs.Bake.Additive
import Texture.Proofs.Bake.Sum
import Texture.Proofs.Svg.Reading
import Texture.Proofs.Operator.Coverage
import Texture.Proofs.Evaluate.Coverage
import Texture.Proofs.Bake.Flatten
import Texture.Proofs.Bake.Contained
import Texture.Proofs.Operator.Contained
import Texture.Proofs.Evaluate.Contained
import Texture.Proofs.Text.Base64
import Texture.Proofs.Text.Canonical
import Texture.Proofs.Zlib.Stored
import Texture.Proofs.Png.Image
import Texture.Proofs.Picture.Grammar
import Texture.Proofs.Picture.Payload
import Texture.Proofs.Svg.Sheet
import Texture.Proofs.Bake.Exact
import Texture.Proofs.Operator.Shift
import Texture.Proofs.Evaluate.Below
import Texture.Proofs.Evaluate.Cause
import Texture.Proofs.Evaluate.Premultiplied
import Texture.Proofs.Picture.Trip
import Texture.Proofs.Svg.Document
import Texture.Proofs.Json.Value
import Texture.Proofs.Json.Lexeme
import Texture.Proofs.Json.Written
import Texture.Proofs.Json.Record
import Texture.Proofs.Graph.Stored
import Texture.Proofs.Project
import Texture.Proofs.Bake.Tame
import Texture.Proofs.Evaluate.Tame
import Texture.Proofs.Graph.Editing
import Texture.Proofs.Evaluate.Chosen
import Texture.Proofs.Number.Position
import Texture.Proofs.Operator.Entry
import Texture.Proofs.Operator.Decode
import Texture.Proofs.Operator.Polar
import Texture.Proofs.Operator.Restyle
import Texture.Proofs.Operator.Pixelate
import Texture.Proofs.Operator.Respelling
import Texture.Proofs.Evaluate.Respelled
import Texture.Proofs.Bake.Layering
import Texture.Proofs.Svg.Table
