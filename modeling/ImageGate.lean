import ImageGate.Main
import ImageGate.Serving
import ImageGate.Backend.Body
import ImageGate.Proofs.Access.Mediation
import ImageGate.Proofs.Access.AuthorisedName
import ImageGate.Proofs.Access.ThumbnailClass
import ImageGate.Proofs.Access.FailClosed
import ImageGate.Proofs.Access.RightsAtStart
import ImageGate.Proofs.Access.Concealment
import ImageGate.Proofs.Backend.Descriptions
import ImageGate.Proofs.Backend.QueryContents
import ImageGate.Proofs.Backend.BelowBase
import ImageGate.Proofs.Backend.Addressings
import ImageGate.Proofs.Backend.NameEncoding
import ImageGate.Proofs.Backend.OutputFormat
import ImageGate.Proofs.Backend.WrittenNumbers
import ImageGate.Proofs.Backend.BodyCount
import ImageGate.Proofs.Request.Grammars
import ImageGate.Proofs.Request.LastValues
import ImageGate.Proofs.Request.TileReread
import ImageGate.Proofs.Request.IiifReread
import ImageGate.Proofs.Request.RuleOrder
import ImageGate.Proofs.Request.TwistMatrices
import ImageGate.Proofs.Request.ProfileShape
import ImageGate.Proofs.Request.PathSplit
import ImageGate.Proofs.Settings.Schedule
import ImageGate.Proofs.Settings.Announced
import ImageGate.Proofs.Http.Outcome
import ImageGate.Proofs.Http.DownloadName
import ImageGate.Proofs.Http.Origins
