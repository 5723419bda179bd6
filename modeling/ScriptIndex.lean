import ScriptIndex.Buffers
import ScriptIndex.Lookup.Merge
import ScriptIndex.Feature.Completion
import ScriptIndex.Feature.Definition
import ScriptIndex.Feature.SignatureHelp
import ScriptIndex.Highlight.Kind
import ScriptIndex.Provider.Tables
import ScriptIndex.Editor.Script
import ScriptIndex.Server.Session
import ScriptIndex.Proofs.Buffers
import ScriptIndex.Proofs.Lookup.Answers
import ScriptIndex.Proofs.Lookup.Coherence
import ScriptIndex.Proofs.Lookup.Refinement
import ScriptIndex.Proofs.Lookup.TokenTypes
import ScriptIndex.Proofs.Disk
import ScriptIndex.Proofs.Url.Escape
import ScriptIndex.Proofs.Url.FileUrl
import ScriptIndex.Proofs.Resource
import ScriptIndex.Proofs.Workspace
import ScriptIndex.Proofs.Server.Freshness
import ScriptIndex.Proofs.Server.Handlers
import ScriptIndex.Proofs.Sources
import ScriptIndex.Proofs.Server.Sources
import ScriptIndex.Proofs.Canonical
import ScriptIndex.Proofs.Lookup.Served
import ScriptIndex.Proofs.Lookup.Calls
import ScriptIndex.Proofs.Server.OpenDocuments
import ScriptIndex.Proofs.Server.IncludeEdits
import ScriptIndex.Proofs.Server.Folders
import ScriptIndex.Proofs.Owner
import ScriptIndex.Proofs.Lookup.Fetches
import ScriptIndex.Proofs.Lookup.Invalidation
import ScriptIndex.Proofs.Lookup.Precedence
import ScriptIndex.Proofs.Lookup.Population
import ScriptIndex.Proofs.Text.Columns
import ScriptIndex.Proofs.Highlight.Words
import ScriptIndex.Proofs.Highlight.Tokens
import ScriptIndex.Proofs.Comment
import ScriptIndex.Proofs.Lookup.WorkspaceSymbols
import ScriptIndex.Proofs.Declaration
import ScriptIndex.Proofs.Lookup.Failures
import ScriptIndex.Proofs.Feature.Definition
import ScriptIndex.Proofs.Highlight.Regions
import ScriptIndex.Proofs.Cursor.Token
import ScriptIndex.Proofs.Cursor.CallSite
import ScriptIndex.Proofs.Cursor.WordAt
import ScriptIndex.Proofs.Cursor.Declared
import ScriptIndex.Proofs.Declaration.Search
import ScriptIndex.Proofs.Symbol
import ScriptIndex.Proofs.Feature.SignatureHelp
import ScriptIndex.Proofs.Constant
import ScriptIndex.Proofs.Text.Blank
import ScriptIndex.Proofs.Text.Lines
import ScriptIndex.Proofs.Command.Assignments
import ScriptIndex.Proofs.Command.Macros
import ScriptIndex.Proofs.Command.Documentation
import ScriptIndex.Proofs.Text.Boundaries
import ScriptIndex.Proofs.Disk.Tree
import ScriptIndex.Proofs.Listing
import ScriptIndex.Proofs.Comment.Escapes
import ScriptIndex.Proofs.Command.Signature
import ScriptIndex.Proofs.Pattern.Declarations
import ScriptIndex.Proofs.Pattern.Commands
