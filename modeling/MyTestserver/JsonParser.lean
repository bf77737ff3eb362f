import MyTestserver.JsonLexer

namespace MyTestserver.Json

-- A value of ref_stack that is still being read. In an object, object_element points to the
-- member of the last key.
inductive Container
  | array (items : List Json)
  | object (members : List (Bytes × Json)) (object_element : Bytes)

-- json_sax_dom_parser. A container is put into the one around it when it is complete; the
-- source does so at its start and goes on through the pointer.
structure DomParser where
  root : Json
  ref_stack : List Container

namespace DomParser

variable (dom : DomParser)

def new : DomParser where
  root := .null
  ref_stack := []

def handleValue (v : Json) : DomParser :=
  match dom.ref_stack with
  | [] => { dom with root := v }
  | .array items :: below => { dom with ref_stack := .array (items ++ [v]) :: below }
  | .object members object_element :: below =>
      { dom with
        ref_stack := .object (insertMember object_element v members) object_element :: below }

def startArray : DomParser := { dom with ref_stack := .array [] :: dom.ref_stack }

def startObject : DomParser := { dom with ref_stack := .object [] [] :: dom.ref_stack }

def key (val : Bytes) : DomParser :=
  match dom.ref_stack with
  | .object members _ :: below => { dom with ref_stack := .object members val :: below }
  | _ => dom

def endArray : DomParser :=
  match dom.ref_stack with
  | .array items :: below =>
      ({ dom with ref_stack := below } : DomParser).handleValue (.array items)
  | _ => dom

def endObject : DomParser :=
  match dom.ref_stack with
  | .object members _ :: below =>
      ({ dom with ref_stack := below } : DomParser).handleValue (.object members)
  | _ => dom

end DomParser

namespace Parser

-- sax_parse_internal, cut into its two parts. `states` tells the arrays around, which are
-- true, from the objects.

mutual

-- The first token is last_token.
def parseValue (states : List Bool) (dom : DomParser) :
    List Token → Except Exception (DomParser × List Token)
  | .begin_object :: .end_object :: rest => evaluateState states dom.startObject.endObject rest
  | .begin_object :: .value_string val :: .name_separator :: rest =>
      parseValue (false :: states) (dom.startObject.key val) rest
  | .begin_array :: .end_array :: rest => evaluateState states dom.startArray.endArray rest
  | .begin_array :: rest => parseValue (true :: states) dom.startArray rest
  | .value_float none :: _ => .error .out_of_range
  | .value_float (some val) :: rest =>
      evaluateState states (dom.handleValue (.number_float val)) rest
  | .literal_false :: rest => evaluateState states (dom.handleValue (.boolean false)) rest
  | .literal_null :: rest => evaluateState states (dom.handleValue .null) rest
  | .literal_true :: rest => evaluateState states (dom.handleValue (.boolean true)) rest
  | .value_integer val :: rest =>
      evaluateState states (dom.handleValue (.number_integer val)) rest
  | .value_string val :: rest => evaluateState states (dom.handleValue (.string val)) rest
  | .value_unsigned val :: rest =>
      evaluateState states (dom.handleValue (.number_unsigned val)) rest
  | _ => .error .parse_error

-- After a value; the first token is still to be got. skip_to_state_evaluation comes back here.
def evaluateState (states : List Bool) (dom : DomParser) (tokens : List Token) :
    Except Exception (DomParser × List Token) :=
  match states, tokens with
  | [], tokens => .ok (dom, tokens)
  | true :: states, .value_separator :: rest => parseValue (true :: states) dom rest
  | true :: states, .end_array :: rest => evaluateState states dom.endArray rest
  | false :: states, .value_separator :: .value_string val :: .name_separator :: rest =>
      parseValue (false :: states) (dom.key val) rest
  | false :: states, .end_object :: rest => evaluateState states dom.endObject rest
  | _, _ => .error .parse_error

end

-- parser::parse. In strict mode the input has to end behind the value.
def parse (tokens : List Token) : Except Exception Json :=
  match parseValue [] .new tokens with
  | .ok (dom, .end_of_input :: _) => .ok dom.root
  | .ok _ => .error .parse_error
  | .error e => .error e

end Parser

-- json::parse, over what strtod makes of a text, and static_cast<int> of that.
def parse (strtod : Bytes → Option Int32) (text : Bytes) : Except Exception Json :=
  Parser.parse (Lexer.tokens strtod text)

end MyTestserver.Json
