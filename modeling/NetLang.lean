import NetLang.Theory.Framing
import NetLang.Theory.Foreign
import NetLang.Semantic.Analyze
import NetLang.Syntax.Rewrite
import NetLang.Relational.Programs
import NetLang.Relational.Batches
import NetLang.Transport.Runtimes
import NetLang.Parser.Located
import NetLang.Parser.Strings
import NetLang.Theory.Iterations
import NetLang.Theory.Panics
import NetLang.Theory.Initializers
import NetLang.Theory.Termination
import NetLang.Library.Lockstep
import NetLang.Theory.Equality
import NetLang.Theory.Updates
import NetLang.Theory.Replay
import NetLang.Types.Cycles
import NetLang.Theory.Records
import NetLang.Http.Requests
import NetLang.Http.Responses
import NetLang.Theory.Buffers
import NetLang.Theory.Keeping
import NetLang.Theory.Context
import NetLang.Semantic.Balance
import NetLang.Diagnostic.Render
import NetLang.Parser.Bare
import NetLang.Theory.Transparency
import NetLang.Theory.Formatting
import NetLang.Theory.Independence
import NetLang.Theory.Serialization
import NetLang.Theory.Conversions
