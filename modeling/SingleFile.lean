import SingleFile.Catalog
import SingleFile.Compile.Reading
import SingleFile.Main
import SingleFile.Proofs.Compile.Agreement
import SingleFile.Proofs.Compile.Margins
import SingleFile.Proofs.Compile.Methods
import SingleFile.Proofs.Compile.Rendering
import SingleFile.Proofs.Compile.Truncation
import SingleFile.Proofs.Compile.Unread
import SingleFile.Proofs.Component.Body
import SingleFile.Proofs.Service.Assigning
import SingleFile.Proofs.Service.Failure
import SingleFile.Proofs.Service.Following
import SingleFile.Proofs.Service.Sharing
import SingleFile.Script.Reading
import SingleFile.Service.Logged
import SingleFile.Proofs.Script.Initializers
import SingleFile.Proofs.Script.Interior
import SingleFile.Proofs.Script.Scan
import SingleFile.Proofs.Script.ReturnedObject
import SingleFile.Proofs.Template.Counting
import SingleFile.Proofs.Template.Search
import SingleFile.Proofs.Template.Pieces
import SingleFile.Proofs.Template.Markup
import SingleFile.Proofs.Template.Joining
import SingleFile.Proofs.Script.Keywords
import SingleFile.Proofs.Template.Form
import SingleFile.Proofs.Template.Scan
import SingleFile.Proofs.Service.Keeping
import SingleFile.Proofs.Service.Typing
import SingleFile.Proofs.Settings.Bindings
import SingleFile.Proofs.CommandLine.Running
import SingleFile.Proofs.Log.InForce
import SingleFile.Proofs.Settings.Variables
import SingleFile.Proofs.Log.Files
