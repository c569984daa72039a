import PicaShader.Command.FileTree
import PicaShader.Container.Draft
import PicaShader.Main
import PicaShader.Proofs.Assembly.OneShot
import PicaShader.Proofs.Assembly.Faults
import PicaShader.Proofs.Assembly.Limits
import PicaShader.Proofs.Assembly.Passes
import PicaShader.Proofs.Assembly.TwoPass
import PicaShader.Proofs.Container.Sections
import PicaShader.Proofs.Container.RoundTrip
import PicaShader.Proofs.Container.Building
import PicaShader.Proofs.Instruction.Slots
import PicaShader.Proofs.Instruction.Packing
import PicaShader.Proofs.Numeral
import PicaShader.Proofs.Text.Plain
import PicaShader.Proofs.Instruction.Tokens
import PicaShader.Proofs.Instruction.Registers
import PicaShader.Proofs.Instruction.Canonical
import PicaShader.Proofs.Instruction.Parsing
import PicaShader.Proofs.Instruction.Statements
import PicaShader.Proofs.Instruction.Reassembly
import PicaShader.Proofs.Container.Retraction
import PicaShader.Proofs.Assembly.Reporting
import PicaShader.Proofs.Assembly.Directives
import PicaShader.Proofs.Assembly.Accepted
import PicaShader.Proofs.Assembly.Records
import PicaShader.Proofs.Assembly.SelfListing
import PicaShader.Proofs.Container.Positions
import PicaShader.Proofs.Container.Bounds
import PicaShader.Proofs.Container.Outcomes
import PicaShader.Proofs.Container.Counts
import PicaShader.Proofs.Assembly.AnyCase
import PicaShader.Proofs.Assembly.Effects
import PicaShader.Proofs.Assembly.Surface
import PicaShader.Proofs.Single.ReadBack
import PicaShader.Proofs.Container.Framing
import PicaShader.Proofs.Container.Symbols
import PicaShader.Proofs.Assembly.Frames
import PicaShader.Proofs.Assembly.Placement
import PicaShader.Proofs.Assembly.DirectiveText
import PicaShader.Proofs.Assembly.ListedDirectives
import PicaShader.Proofs.Assembly.Resources
import PicaShader.Proofs.Instruction.OperandLists
import PicaShader.Proofs.Instruction.DescribedOperands
import PicaShader.Proofs.Instruction.RegisterTokens
import PicaShader.Proofs.Instruction.Branches
import PicaShader.Proofs.Descriptor
import PicaShader.Proofs.Container.Layout
import PicaShader.Proofs.Assembly.LineParts
import PicaShader.Proofs.Assembly.LineStatements
import PicaShader.Proofs.Assembly.Origins
import PicaShader.Proofs.Assembly.Carets
import PicaShader.Proofs.Instruction.LeadingColons
import PicaShader.Proofs.Assembly.DetachedLabels
