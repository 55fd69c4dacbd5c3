import ChromeEc.SymbolizeLog.Str
import ChromeEc.SymbolizeLog.Regex
import ChromeEc.SymbolizeLog.Pattern
import ChromeEc.SymbolizeLog.Symbolize
import ChromeEc.SymbolizeLog.Log
import ChromeEc.SymbolizeLog.Memo
import ChromeEc.SymbolizeLog.Runs
import ChromeEc.SymbolizeLog.Output
import ChromeEc.Zmake.Modules
