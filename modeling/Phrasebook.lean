import Phrasebook.Document.Json
import Phrasebook.Key.Location
import Phrasebook.Plugin.Capitalize
import Phrasebook.Plugin.NumberFormat
import Phrasebook.Plugin.Scripted
import Phrasebook.Remote
import Phrasebook.Service.Background
import Phrasebook.Settings.File
import Phrasebook.Proofs.Icu.Message
import Phrasebook.Proofs.Icu.Layout
import Phrasebook.Proofs.Icu.Cursor
import Phrasebook.Proofs.Icu.Composition
import Phrasebook.Proofs.Icu.Exchange
import Phrasebook.Proofs.Icu.Cells
import Phrasebook.Proofs.Icu.Outermost
import Phrasebook.Proofs.Service.Advance
import Phrasebook.Proofs.Service.InFlight
import Phrasebook.Proofs.Service.Placeholder
import Phrasebook.Proofs.Service.Saves
import Phrasebook.Proofs.Service.Additions
import Phrasebook.Proofs.Service.Retrieval
import Phrasebook.Proofs.Plugin.Registry
import Phrasebook.Proofs.Plugin.Containment
import Phrasebook.Proofs.Plugin.Quiet
import Phrasebook.Proofs.Plugin.Farewell
import Phrasebook.Proofs.Plugin.Dependencies
import Phrasebook.Proofs.Service.Repetition
import Phrasebook.Proofs.Service.Completion
import Phrasebook.Proofs.Service.Supply
import Phrasebook.Proofs.Service.Reentry
import Phrasebook.Proofs.Service.Retry
import Phrasebook.Proofs.Service.Attendance
import Phrasebook.Proofs.Template.Harmless
import Phrasebook.Proofs.Template.Unbound
import Phrasebook.Proofs.Service.Search
import Phrasebook.Proofs.Service.DefaultSpace
import Phrasebook.Proofs.Service.Endings
import Phrasebook.Proofs.Service.Locales
import Phrasebook.Proofs.Service.Untranslated
import Phrasebook.Proofs.Key.FilePath
import Phrasebook.Proofs.Key.Retraction
import Phrasebook.Proofs.Service.Nameless
import Phrasebook.Proofs.Store.Writes
import Phrasebook.Proofs.Store.Reading
import Phrasebook.Proofs.Number.Decoding
import Phrasebook.Proofs.Language.Spelling
import Phrasebook.Proofs.Number.Sign
import Phrasebook.Proofs.Number.Compact
import Phrasebook.Proofs.Remote.PathPattern
