import GameArchive.Extraction.Job
import GameArchive.Main
import GameArchive.Package.Draft
import GameArchive.Proofs.Lzma.Frame
import GameArchive.Proofs.Map.Layout
import GameArchive.Proofs.Map.RecordLumps
import GameArchive.Proofs.Map.GameLump.Directory
import GameArchive.Proofs.Map.GameLump.Sections
import GameArchive.Proofs.Map.GameLump.Chain
import GameArchive.Proofs.Map.GameLump.PropFormats
import GameArchive.Proofs.Map.GameLump.Entries
import GameArchive.Proofs.Map.Pak.Archive
import GameArchive.Proofs.Map.Pak.Repacking
import GameArchive.Proofs.Map.Pak.Chain
import GameArchive.Proofs.Map.Pak.Idempotence
import GameArchive.Proofs.Cipher.Aes
import GameArchive.Proofs.Cipher.Blowfish
import GameArchive.Proofs.Cipher.Des
import GameArchive.Proofs.Cipher.Engine
import GameArchive.Proofs.Package.Layers
import GameArchive.Proofs.Text.Slashes
import GameArchive.Proofs.Package.Contents
import GameArchive.Proofs.Package.Building
import GameArchive.Proofs.Package.Opening
import GameArchive.Proofs.Package.Holding
import GameArchive.Proofs.Package.Overlay
import GameArchive.Proofs.Extraction.Confinement
import GameArchive.Proofs.Extraction.Accounts
import GameArchive.Proofs.Extraction.FirstFailure
import GameArchive.Cipher.InPlace
import GameArchive.Proofs.Extraction.Stopping
import GameArchive.Proofs.Cipher.InPlace
import GameArchive.Proofs.Package.Unwrapping
import GameArchive.Proofs.Text.Lines
import GameArchive.Proofs.Package.Naming
import GameArchive.Proofs.Texture.Parts
import GameArchive.Proofs.Package.Finality
import GameArchive.Proofs.Package.Exactness
import GameArchive.Proofs.Package.Detection
import GameArchive.Proofs.Package.Padding
import GameArchive.Proofs.Listing.Abbreviation
import GameArchive.Proofs.Listing.Wildcard
import GameArchive.Proofs.Extraction.WholeContainers
import GameArchive.Proofs.Extraction.Waiting
import GameArchive.Proofs.Headers
import GameArchive.Proofs.Package.Conversion
