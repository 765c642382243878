import DbPager.Library.Effect
import DbPager.Text
import DbPager.Tag
import DbPager.Dcl
import DbPager.Lexer
import DbPager.Outside
import DbPager.Context
import DbPager.Machine
import DbPager.Expression
import DbPager.Tags.Control
import DbPager.Tags.Text
import DbPager.Tags.Collections
import DbPager.Tags.Functions
import DbPager.Evaluation
import DbPager.Tags.System
import DbPager.Tags.Database
import DbPager.Tags.Services
import DbPager.Interpreter
import DbPager.Plain
import DbPager.Frame
import DbPager.Families.Core
import DbPager.Families.Modules
import DbPager.Ordinary
import DbPager.Layers
import DbPager.CallStack
import DbPager.Lexical
import DbPager.Template
import DbPager.Arguments
import DbPager.Markup
import DbPager.Session.Format
import DbPager.Session.Internal
import DbPager.Session.Concurrent
import DbPager.Session.Jwt
import DbPager.Session.Renewal
import DbPager.Environment
import DbPager.Headers
import DbPager.Nesting
import DbPager.Splice
import DbPager.Tokens
import DbPager.Arithmetic
import DbPager.Chains
import DbPager.ShortCircuit
import DbPager.Congruence
import DbPager.Grammar
import DbPager.Strict
import DbPager.Termination
import DbPager.Transactions
import DbPager.Async
import DbPager.Rendering
import DbPager.Captured
import DbPager.Pools
import DbPager.Braces
import DbPager.Calls
import DbPager.Maps
import DbPager.Comparisons
import DbPager.Session.Memcached
import DbPager.Includes
import DbPager.Daemon
import DbPager.Assignment
import DbPager.Strings
import DbPager.Placeholders
import DbPager.Exceptions
import DbPager.Rows
import DbPager.Switch
import DbPager.Jumps
import DbPager.Stylesheet
import DbPager.Session.Opening
import DbPager.Parameters
import DbPager.Lists
import DbPager.Replies
import DbPager.MapTypes
import DbPager.MapJson
import DbPager.Session.Redis
import DbPager.Cursors
import DbPager.Reconnection
import DbPager.Library.Occurrences
import DbPager.Fragments
import DbPager.Replacement
import DbPager.Matches
import DbPager.Repeated
import DbPager.Factory
import DbPager.Loading
import DbPager.Cdata
import DbPager.Operators
import DbPager.ForLoop
import DbPager.Prolog
import DbPager.PrologLoop
import DbPager.Library.Holes
import DbPager.Numbered
import DbPager.Bindings
import DbPager.Identity
import DbPager.Databases
import DbPager.Queries
import DbPager.Fcgx.Records
import DbPager.Fcgx.Reader
import DbPager.Fcgx.Params
import DbPager.Fcgx.Streams
import DbPager.Fcgx.Requests
import DbPager.Fcgx.Writer
import DbPager.Fcgx.Sending
import DbPager.Fcgx.Responses
import DbPager.Fcgx.Worker
import DbPager.Library.Language
import DbPager.Library.Simulation
import DbPager.Semantics
import DbPager.Scenes
import DbPager.Adequacy
import DbPager.Scripts
import DbPager.Library.Machines
import DbPager.Library.Memo
import DbPager.Library.Threads
import DbPager.Applications
import DbPager.Pages
import DbPager.Serving
import DbPager.Conversations
