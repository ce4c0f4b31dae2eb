import ServiceMap.Reference.Rule

/-! The rules for calls, the more specific ones first: a literal that one rule has taken is not
reported again by a later one. -/

namespace ServiceMap

open Pattern CharClass

namespace TypeScript

def quotes : String := "`'\""

/-- Type arguments between a function and its parenthesis. -/
def typeArguments : Pattern := blanks ++ opt (lit "<" ++ many (noneOf ">()") ++ lit ">")

def calls : List Rule := [
  ⟨"ts-fetch", .call, wordEdge ++ lit "fetch" ++ openParen ++ quotedTarget quotes⟩,
  ⟨"ts-axios", .call,
    wordEdge ++ lit "axios" ++
      opt (lit "." ++
        anyOf ["get", "post", "put", "patch", "delete", "head", "options", "request"]) ++
      typeArguments ++ openParen ++ quotedTarget quotes⟩,
  ⟨"ts-http-client", .call,
    wordEdge ++
      wordWith
        [one (of "Hh") ++ lit "ttp", one (of "Cc") ++ lit "lient", one (of "Aa") ++ lit "pi"] ++
      lit "." ++ anyOf ["get", "post", "put", "patch", "delete"] ++
      typeArguments ++ openParen ++ quotedTarget quotes⟩,
  ⟨"ts-base-url-template", .call,
    lit "`$\x7b" ++ some1 (wordOr ".") ++ lit "\x7d" ++
      target (lit "/" ++ many (noneOf "`")) ++ lit "`"⟩,
  ⟨"ts-base-url-concat", .call, baseUrlPlus ++ quotedPath quotes⟩]

end TypeScript

namespace Python

def quotes : String := "'\""

def calls : List Rule := [
  ⟨"py-http-verb", .call,
    wordEdge ++
      firstOf [lit "requests", lit "httpx", lit "aiohttp", lit "session", lit "client",
        lit "self." ++ wordWith [lit "client", lit "session", lit "http", lit "api"]] ++
      lit "." ++ anyOf ["get", "post", "put", "patch", "delete", "head", "request"] ++ openParen ++
      opt (one (of quotes) ++ some1 letter ++ one (of quotes) ++ blanks ++ lit "," ++ blanks) ++
      opt (lit "url" ++ blanks ++ lit "=" ++ blanks) ++ opt (one (of "rfb")) ++
      quotedTarget quotes⟩,
  ⟨"py-urljoin", .call,
    wordEdge ++ lit "urljoin" ++ blanks ++ lit "(" ++ some1 (noneOf ",") ++ lit "," ++ blanks ++
      opt (one (of "rf")) ++ quotedTarget quotes⟩,
  ⟨"py-base-url-fstring", .call,
    wordEdge ++ lit "f" ++ one (of quotes) ++ lit "\x7b" ++ some1 (wordOr ".") ++ lit "\x7d" ++
      target (lit "/" ++ many (noneOf quotes)) ++ one (of quotes)⟩,
  ⟨"py-base-url-concat", .call, baseUrlPlus ++ quotedPath quotes⟩]

end Python

namespace Go

def quotes : String := "\""

def calls : List Rule := [
  ⟨"go-http-func", .call,
    wordEdge ++ lit "http." ++ anyOf ["Get", "Post", "Head", "PostForm"] ++ openParen ++
      quotedTarget quotes⟩,
  ⟨"go-new-request", .call,
    wordEdge ++ lit "http.NewRequest" ++ opt (lit "WithContext") ++ blanks ++ lit "(" ++
      opt (some1 (noneOf ",\"") ++ lit "," ++ blanks) ++
      either (lit "\"" ++ some1 letter ++ lit "\"") (lit "http.Method" ++ some1 word) ++
      blanks ++ lit "," ++ blanks ++ quotedTarget quotes⟩,
  ⟨"go-client-method", .call,
    wordEdge ++ wordWith [one (of "Cc") ++ lit "lient", one (of "Hh") ++ lit "ttp"] ++ lit "." ++
      anyOf ["Get", "Post", "Head"] ++ openParen ++ quotedTarget quotes⟩,
  ⟨"go-sprintf-base", .call,
    wordEdge ++ lit "fmt.Sprintf" ++ openParen ++ lit "\"%s" ++
      target (lit "/" ++ many (noneOf quotes)) ++ lit "\""⟩,
  ⟨"go-base-url-concat", .call, lit "+" ++ blanks ++ quotedPath quotes⟩]

end Go

namespace Ruby

def quotes : String := "\"'"

def calls : List Rule := [
  ⟨"rb-http-library", .call,
    wordEdge ++ anyOf ["HTTParty", "Faraday", "RestClient", "Typhoeus", "HTTP"] ++ lit "." ++
      anyOf ["get", "post", "put", "patch", "delete", "head"] ++ maybeParen ++
      quotedTarget quotes⟩,
  ⟨"rb-net-http", .call,
    wordEdge ++ lit "Net::HTTP." ++ anyOf ["get", "post", "get_response"] ++ openParen ++
      lit "URI" ++ maybeParen ++ quotedTarget quotes⟩,
  ⟨"rb-connection", .call,
    wordEdge ++ anyOf ["conn", "connection", "client", "http"] ++ lit "." ++
      anyOf ["get", "post", "put", "patch", "delete"] ++ maybeParen ++ quotedTarget quotes⟩,
  ⟨"rb-base-url-interpolation", .call,
    lit "\"#\x7b" ++ some1 (noneOf "\x7d") ++ lit "\x7d" ++
      target (lit "/" ++ many (noneOf "\"")) ++ lit "\""⟩]

end Ruby

def Language.callRules : Language → List Rule
  | .typescript => TypeScript.calls
  | .python => Python.calls
  | .go => Go.calls
  | .ruby => Ruby.calls

end ServiceMap
